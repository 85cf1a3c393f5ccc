import AgentOtelBridge.Daemon.Run

/-!
# No span is lost on the way

Every span that the assembler lets out is buffered, handed out in a batch or counted
as too large, in the order it came (`Flow`).  When a run has finished, nothing is left
in the hands of the loop, in the batcher or in the queue; then every event that the
assembler does not hold is in one batch that was offered, in one span that was too
large, or it is a Stop that found nothing to close.
-/

namespace AgentOtelBridge

open PairBuffer FiniteMap Transition

namespace Daemon

variable {φ ρ : Type*}

/-! ## The phases -/

/-- The batcher is not flushed yet. -/
def Phase.Early (phase : Phase) : Prop :=
  phase = .running ∨ phase = .stopping ∨ phase = .draining

/-- What a phase has behind it. -/
structure Phased (d : Daemon φ ρ) : Prop where
  sender : d.phase ≠ .waiting → d.phase ≠ .finished → d.pipeline.senderOpen = true
  flushed : d.phase = .flushing ∨ d.phase = .waiting ∨ d.phase = .finished →
    d.spans = [] ∧ d.batch.spans = []
  handedOver : d.phase = .waiting ∨ d.phase = .finished → d.ready = []
  workerGone : d.phase = .finished → d.pipeline.worker = .gone

section

variable {d : Daemon φ ρ}

/-- Before the batcher is flushed a step need only leave the sender open. -/
theorem Phased.early (hp : Phase.Early d.phase) (hs : d.pipeline.senderOpen = true) :
    Phased d where
  sender _ _ := hs
  flushed h := by rcases hp with hp | hp | hp <;> simp [hp] at h
  handedOver h := by rcases hp with hp | hp | hp <;> simp [hp] at h
  workerGone h := by rcases hp with hp | hp | hp <;> simp [hp] at h

theorem Phased.open_of_early (h : Phased d) (hp : Phase.Early d.phase) :
    d.pipeline.senderOpen = true := by
  rcases hp with hp | hp | hp <;> exact h.sender (by simp [hp]) (by simp [hp])

/-- The worker does in every phase what it does to the pipeline. -/
theorem Phased.setPipeline (h : Phased d) {p : Pipeline ρ Span}
    (hs : p.senderOpen = d.pipeline.senderOpen)
    (hw : d.pipeline.worker = .gone → p.worker = .gone) : Phased { d with pipeline := p } where
  sender hp hp' := hs.trans (h.sender hp hp')
  flushed := h.flushed
  handedOver := h.handedOver
  workerGone hp := hw (h.workerGone hp)

end

/-! ## The work on an event -/

/-- What `transform` does with an event: besides the counters it moves the assembler. -/
theorem transform_ok (d : Daemon φ ρ) (quotas : Option Quotas) (outcome : Outcome)
    (ord : IterOrder PairKey) (now : Nat) :
    ∃ dropped, d.transform quotas (.ok outcome) ord now = { d with
      salt := d.nextSalt
      spans := (d.assembler.observe ord outcome.span now).1
      assembler := (d.assembler.observe ord outcome.span now).2
      events := d.events ++ [⟨outcome.span, now, ord⟩]
      pipeline := { d.pipeline with stats := { d.pipeline.stats with
        transformed := d.pipeline.stats.transformed + 1
        quotaActivityDropped := d.pipeline.stats.quotaActivityDropped + dropped } } } := by
  cases quotas with
  | none => exact ⟨0, rfl⟩
  | some quotas =>
      cases hname : outcome.agentName with
      | none => exact ⟨0, by simp [transform, noteActivity, hname, count, nextSalt]⟩
      | some name =>
          by_cases hq : quotas name outcome.totalTokens = true
          · exact ⟨0, by simp [transform, noteActivity, hname, hq, count, nextSalt]⟩
          · exact ⟨1, by simp [transform, noteActivity, hname, hq, count, nextSalt]⟩

/-- The daemon's own counters are no concern of the pipeline. -/
theorem transform_pipeline {d : Daemon φ ρ} (hi : d.pipeline.Inv) (hc : d.pipeline.Closed)
    (quotas : Option Quotas) (outcome : Except String Outcome) (ord : IterOrder PairKey)
    (now : Nat) :
    (d.transform quotas outcome ord now).phase = d.phase ∧
      (d.transform quotas outcome ord now).pipeline.Inv ∧
      (d.transform quotas outcome ord now).pipeline.Closed ∧
      (d.transform quotas outcome ord now).pipeline.senderOpen = d.pipeline.senderOpen := by
  cases outcome with
  | error error => exact ⟨rfl, hi.setStats rfl rfl rfl rfl, hc, rfl⟩
  | ok outcome =>
      obtain ⟨dropped, he⟩ := d.transform_ok quotas outcome ord now
      rw [he]
      exact ⟨rfl, hi.setStats rfl rfl rfl rfl, hc, rfl⟩

/-! ## The fates of the events -/

/-- What becomes of what the assembler does. -/
inductive Fate where
  | batched
  | oversize
  | orphan
deriving DecidableEq, Repr

/-- The span of an emission is batched or too large; a Stop may have none. -/
def fate (fits : Span → Bool) (em : Emission Span) : Fate :=
  match rules.render em with
  | [] => .orphan
  | span :: _ => if fits span then .batched else .oversize

/-- The emission takes up an event and has a fate. -/
def takes (fits : Span → Bool) (i : ℕ) (f : Fate) (em : Emission Span) : Bool :=
  i ∈ em.ids && fate fits em = f

section

variable {fits : Span → Bool} {trace : List (Emission Span)}

/-- The spans that fit are those of the batched emissions, in order. -/
theorem filter_rendered (fits : Span → Bool) (trace : List (Emission Span)) :
    (trace.flatMap rules.render).filter fits =
      (trace.filter fun em => fate fits em = .batched).flatMap rules.render := by
  induction trace with
  | nil => rfl
  | cons em trace ih =>
      rw [List.flatMap_cons, List.filter_append, ih, List.filter_cons]
      cases em with
      | unpaired c i x => by_cases hf : fits (rules.single c x) = true <;> simp [fate, Rules.render, hf]
      | paired i x j y => by_cases hf : fits (rules.join x y) = true <;> simp [fate, Rules.render, hf]
      | dropped i x => simp [fate, Rules.render, rules]

theorem countP_rendered (fits : Span → Bool) (trace : List (Emission Span)) :
    (trace.flatMap rules.render).countP (fun span => !fits span) =
      trace.countP fun em => fate fits em = .oversize := by
  induction trace with
  | nil => rfl
  | cons em trace ih =>
      rw [List.flatMap_cons, List.countP_append, ih, List.countP_cons]
      cases em with
      | unpaired c i x =>
          by_cases hf : fits (rules.single c x) = true <;> simp [fate, Rules.render, hf, Nat.add_comm]
      | paired i x j y =>
          by_cases hf : fits (rules.join x y) = true <;> simp [fate, Rules.render, hf, Nat.add_comm]
      | dropped i x => simp [fate, Rules.render, rules]

/-- How often an event is taken up, by the fates. -/
theorem count_ids {cfg : Config} {es : List (Event PairKey Span)}
    (hexp : ∀ em ∈ trace, em.Explained rules cfg es) (i : ℕ) :
    (trace.flatMap Emission.ids).count i = trace.countP (takes fits i .batched) +
      trace.countP (takes fits i .oversize) + trace.countP (takes fits i .orphan) := by
  induction trace with
  | nil => rfl
  | cons em trace ih =>
      have hone : em.ids.count i = if i ∈ em.ids then 1 else 0 := by
        refine List.Nodup.count ?_
        cases em with
        | unpaired c j x => exact List.nodup_singleton j
        | dropped j x => exact List.nodup_singleton j
        | paired j x k y =>
            obtain ⟨_, _, _, _, _, _, _, hlt, _⟩ := hexp _ List.mem_cons_self
            simpa [Emission.ids] using Nat.ne_of_lt hlt
      rw [List.flatMap_cons, List.count_append, hone,
        ih fun em' hem => hexp em' (List.mem_cons_of_mem _ hem), List.countP_cons, List.countP_cons,
        List.countP_cons]
      by_cases hi : i ∈ em.ids
      · cases hf : fate fits em <;> simp [takes, hi, hf] <;> omega
      · simp [takes, hi]

end

/-! ## The flow of spans -/

variable [Message ρ]

/-- The spans of the batches that were offered to the export queue. -/
def enqueued (d : Daemon φ ρ) : List Span :=
  d.pipeline.offered.flatMap fun batch => batch.request.spans

/-- The spans the batcher was given: those offered, those handed out, those it has. -/
def buffered (d : Daemon φ ρ) : List Span :=
  d.enqueued ++ ((d.ready.flatMap fun batch => batch.request.spans) ++ d.batch.spans)

/-- The spans that the assembler has let out are given to the batcher or counted as too
large, up to those at work. -/
structure Flow (fits : Span → Bool) (d : Daemon φ ρ) : Prop where
  assembler : d.assembler = ((default : SpanAssembler).run d.events).2
  spans : ∃ done, ((default : SpanAssembler).run d.events).1 = done ++ d.spans ∧
    done.filter fits = d.buffered ∧
    d.pipeline.stats.spanSize = done.countP fun span => !fits span
  transformed : d.pipeline.stats.transformed = d.events.length
  good : d.batch.Good
  limit : d.batch.fits = fits
  small : ∀ batch ∈ d.ready, batch.encodedBytes ≤ Exporter.maxRequestBytes

section

variable {fits : Span → Bool} {d : Daemon φ ρ}

theorem start_flow (resource : ρ) (batchSize : Nat) (schemaUrl : String) :
    Flow (SpanBatcher.withSchema resource batchSize schemaUrl).fits
      (start resource batchSize schemaUrl : Daemon φ ρ) where
  assembler := rfl
  spans := ⟨[], rfl, rfl, rfl⟩
  transformed := rfl
  good := SpanBatcher.withSchema_good ..
  limit := rfl
  small := nofun

/-- A step of the pipeline that offers nothing. -/
theorem Flow.setPipeline (h : Flow fits d) {p : Pipeline ρ Span}
    (ho : p.offered = d.pipeline.offered)
    (hown : p.stats.transformed = d.pipeline.stats.transformed ∧
      p.stats.spanSize = d.pipeline.stats.spanSize) : Flow fits { d with pipeline := p } where
  assembler := h.assembler
  spans := by
    obtain ⟨done, hrun, hdone, hsize⟩ := h.spans
    refine ⟨done, hrun, ?_, hown.2.trans hsize⟩
    rw [hdone, buffered, enqueued, buffered, enqueued, ho]
  transformed := hown.1.trans h.transformed
  good := h.good
  limit := h.limit
  small := h.small

/-- The batcher hands out a batch, or nothing. -/
theorem Flow.handOut (h : Flow fits d) (hr : d.ready = [])
    {r : Option (ExportBatch ρ Span) × SpanBatcher ρ Span} (ho : d.batch.HandsOut r) :
    Flow fits { d with batch := r.2, ready := r.1.toList } where
  assembler := h.assembler
  spans := by
    obtain ⟨done, hrun, hdone, hsize⟩ := h.spans
    refine ⟨done, hrun, ?_, hsize⟩
    rw [hdone, buffered, buffered, hr, ho.spans]
    rfl
  transformed := h.transformed
  good := ho.good
  limit := (SpanBatcher.fits_congr ho.requestBytes).trans h.limit
  small := ho.small

/-- A batch that is enqueued is offered. -/
theorem Flow.enqueue (h : Flow fits d) {batch : ExportBatch ρ Span}
    {rest : List (ExportBatch ρ Span)} (hr : d.ready = batch :: rest) {p : Pipeline ρ Span}
    (ho : p.offered = d.pipeline.offered ++ [batch])
    (hown : p.stats.transformed = d.pipeline.stats.transformed ∧
      p.stats.spanSize = d.pipeline.stats.spanSize) :
    Flow fits { d with ready := rest, pipeline := p } where
  assembler := h.assembler
  spans := by
    obtain ⟨done, hrun, hdone, hsize⟩ := h.spans
    refine ⟨done, hrun, ?_, hown.2.trans hsize⟩
    rw [hdone, buffered, enqueued, buffered, enqueued, ho, hr]
    simp
  transformed := hown.1.trans h.transformed
  good := h.good
  limit := h.limit
  small batch' hb := h.small batch' (hr ▸ List.mem_cons_of_mem _ hb)

/-! ## The work on a frame -/

theorem Flow.transform (h : Flow fits d) (hs : d.spans = []) (quotas : Option Quotas)
    (outcome : Except String Outcome) (ord : IterOrder PairKey) (now : Nat) :
    Flow fits (d.transform quotas outcome ord now) := by
  cases outcome with
  | error error => exact ⟨h.assembler, h.spans, h.transformed, h.good, h.limit, h.small⟩
  | ok outcome =>
      obtain ⟨dropped, he⟩ := d.transform_ok quotas outcome ord now
      obtain ⟨done, hrun, hdone, hsize⟩ := h.spans
      rw [hs, List.append_nil] at hrun
      rw [he]
      refine ⟨?_, ⟨done, ?_, hdone, hsize⟩, ?_, h.good, h.limit, h.small⟩
      · simp only [SpanAssembler.run_concat, ← h.assembler]
      · simp only [SpanAssembler.run_concat, ← h.assembler, hrun]
      · simp only [h.transformed, List.length_append, List.length_singleton]

theorem Flow.push (h : Flow fits d) {span : Span} {rest : List Span} (hs : d.spans = span :: rest)
    (hr : d.ready = []) (now : Nat) : Flow fits (d.push span rest now) := by
  obtain ⟨done, hrun, hdone, hsize⟩ := h.spans
  have hrun' : ((default : SpanAssembler).run d.events).1 = (done ++ [span]) ++ rest := by
    rw [hrun, hs]
    simp
  have herror : _ ↔ d.batch.fits span = false := d.batch.tryPush_error span now
  rw [h.limit] at herror
  obtain ⟨hgood, hspec⟩ := SpanBatcher.tryPush_spec h.good span now
  have hsame := d.batch.tryPush_requestBytes span now
  have hpushes := fun ready => h.good.pushes span now ready
  unfold Daemon.push
  generalize d.batch.tryPush span now = r at herror hgood hspec hsame hpushes
  obtain ⟨result, batch⟩ := r
  have hlimit : batch.fits = fits := (SpanBatcher.fits_congr hsame).trans h.limit
  cases result with
  | error error =>
      -- The span fits no request: it is counted, and the batcher is as it was.
      have hno := herror.mp ⟨error, rfl⟩
      obtain rfl : batch = d.batch := hspec
      refine ⟨h.assembler, ⟨done ++ [span], hrun', ?_, ?_⟩, h.transformed, h.good, h.limit, h.small⟩
      · rw [List.filter_append, hdone, List.filter_cons, hno]
        simp only [Bool.false_eq_true, if_false, List.filter_nil, List.append_nil]
        rfl
      · rw [List.countP_append, ← hsize]
        simp [count, hno]
  | ok ready =>
      have hyes : fits span = true := by
        cases hf : fits span with
        | true => rfl
        | false =>
            obtain ⟨error, he⟩ := herror.mpr hf
            cases he
      obtain ⟨hspans, hsmall⟩ := hpushes ready rfl
      have hfull : batch.HandsOut (if batch.isFull then batch.take else (none, batch)) := by
        split
        · exact hgood.takes
        · exact hgood.keeps
      simp only
      generalize (if batch.isFull then batch.take else (none, batch)) = full at hfull
      refine ⟨h.assembler, ⟨done ++ [span], hrun', ?_, ?_⟩, h.transformed, hfull.good,
        (SpanBatcher.fits_congr hfull.requestBytes).trans hlimit, ?_⟩
      · rw [List.filter_append, hdone, List.filter_cons, hyes, buffered, hr]
        simp only [if_true, List.filter_nil, List.flatMap_nil, List.nil_append, List.append_assoc,
          ← hspans, ← hfull.spans, buffered, List.flatMap_append]
        rfl
      · rw [List.countP_append, ← hsize]
        simp [hyes]
      · intro b hb
        rcases List.mem_append.mp hb with hb | hb
        · exact hsmall b hb
        · exact hfull.small b hb

end

/-! ## The invariant -/

/-- Everything a step keeps. -/
structure Inv (fits : Span → Bool) (d : Daemon φ ρ) : Prop where
  flow : Flow fits d
  phased : Phased d
  pipeline : d.pipeline.Inv
  closed : d.pipeline.Closed

section

variable {fits : Span → Bool} {d d' : Daemon φ ρ}

theorem start_inv (resource : ρ) (batchSize : Nat) (schemaUrl : String) :
    Inv (SpanBatcher.withSchema resource batchSize schemaUrl).fits
      (start resource batchSize schemaUrl : Daemon φ ρ) where
  flow := start_flow resource batchSize schemaUrl
  phased := ⟨fun _ _ => rfl, by simp [start], by simp [start], by simp [start]⟩
  pipeline := Pipeline.new_inv
  closed := nofun

/-- Another early phase, and what the channel and the loop count. -/
theorem Inv.early (h : Inv fits d) (hd : Phase.Early d.phase) {phase : Phase}
    (hp : Phase.Early phase) (inbox : List φ) (processed : Nat) (serverError : Option String) :
    Inv fits { d with
      phase := phase, inbox := inbox, processed := processed, serverError := serverError } :=
  ⟨⟨h.flow.assembler, h.flow.spans, h.flow.transformed, h.flow.good, h.flow.limit, h.flow.small⟩,
    .early hp (h.phased.open_of_early hd), h.pipeline, h.closed⟩

theorem Inv.transform (h : Inv fits d) (hp : Phase.Early d.phase) (hs : d.spans = [])
    (quotas : Option Quotas) (outcome : Except String Outcome) (ord : IterOrder PairKey)
    (now : Nat) : Inv fits (d.transform quotas outcome ord now) := by
  obtain ⟨hphase, hi, hc, hsender⟩ := transform_pipeline h.pipeline h.closed quotas outcome ord now
  exact ⟨h.flow.transform hs quotas outcome ord now,
    .early (hphase ▸ hp) (hsender.trans (h.phased.open_of_early hp)), hi, hc⟩

/-- A step of the pipeline that offers nothing. -/
theorem Inv.setPipeline (h : Inv fits d) {p : Pipeline ρ Span} (hs : Pipeline.Step d.pipeline p)
    (ho : p.offered = d.pipeline.offered) (hsender : p.senderOpen = d.pipeline.senderOpen)
    (hw : d.pipeline.worker = .gone → p.worker = .gone) : Inv fits { d with pipeline := p } :=
  ⟨h.flow.setPipeline ho hs.own, h.phased.setPipeline hsender hw, hs.inv h.pipeline,
    hs.closed_inv h.closed⟩

/-- The loop of the daemon runs and the batcher hands out what is due. -/
theorem Inv.takeDue (h : Inv fits d) (hp : d.phase = .running) (hf : d.Free) (now timeout : Nat) :
    Inv fits (d.takeDue now timeout) :=
  ⟨h.flow.handOut hf.2 (h.flow.good.takesDue now timeout),
    .early (.inl hp) (h.phased.open_of_early (.inl hp)), h.pipeline, h.closed⟩

theorem Inv.push (h : Inv fits d) {span : Span} {rest : List Span} (hs : d.spans = span :: rest)
    (hr : d.ready = []) (now : Nat) : Inv fits (d.push span rest now) := by
  have hearly : Phase.Early d.phase := by
    have hlate := h.phased.flushed
    rw [hs] at hlate
    unfold Phase.Early
    cases hp : d.phase <;> simp [hp] at hlate ⊢
  have hflow := h.flow.push hs hr now
  have hopen := h.phased.open_of_early hearly
  have hpush : (d.push span rest now).phase = d.phase ∧
      (d.push span rest now).pipeline.Inv ∧ (d.push span rest now).pipeline.Closed ∧
      (d.push span rest now).pipeline.senderOpen = d.pipeline.senderOpen := by
    unfold Daemon.push
    generalize d.batch.tryPush span now = r
    obtain ⟨result, batch⟩ := r
    cases result with
    | error error => exact ⟨rfl, h.pipeline.setStats rfl rfl rfl rfl, h.closed, rfl⟩
    | ok ready => exact ⟨rfl, h.pipeline, h.closed, rfl⟩
  exact ⟨hflow, .early (hpush.1 ▸ hearly) (hpush.2.2.2.trans hopen), hpush.2.1, hpush.2.2.1⟩

/-- A batch is enqueued while the sender is open. -/
theorem Inv.enqueue (h : Inv fits d) {batch : ExportBatch ρ Span}
    {rest : List (ExportBatch ρ Span)} (hr : d.ready = batch :: rest) :
    Inv fits { d with ready := rest, pipeline := d.pipeline.enqueue batch } := by
  have hlate := h.phased.handedOver
  rw [hr] at hlate
  have hopen : d.pipeline.senderOpen = true := by
    refine h.phased.sender (fun hp => ?_) fun hp => ?_
    · cases hlate (.inl hp)
    · cases hlate (.inr hp)
  have hsmall := h.flow.small batch (hr ▸ List.mem_cons_self)
  have hstep : Pipeline.Step d.pipeline (d.pipeline.enqueue batch) :=
    .enqueue hopen batch (Nat.lt_of_le_of_lt hsmall (by decide))
  have hsender : (d.pipeline.enqueue batch).senderOpen = d.pipeline.senderOpen ∧
      (d.pipeline.enqueue batch).worker = d.pipeline.worker := by
    rcases Pipeline.enqueue_cases d.pipeline batch with ⟨_, he⟩ | ⟨_, ⟨_, he⟩ | he⟩ <;>
      rw [he] <;> exact ⟨rfl, rfl⟩
  refine ⟨h.flow.enqueue hr (Pipeline.enqueue_offered _ _) hstep.own, ?_, hstep.inv h.pipeline,
    hstep.closed_inv h.closed⟩
  exact {
    sender := fun hp hp' => hsender.1.trans (h.phased.sender hp hp')
    flushed := h.phased.flushed
    handedOver := fun hp => by cases hlate hp
    workerGone := fun hp => hsender.2.trans (h.phased.workerGone hp) }

/-- Every step keeps the invariant. -/
theorem Step.inv {produces : φ → Nat → Except String Outcome → Prop} {timeout : Nat}
    (h : Inv fits d) (hs : Step produces timeout d d') : Inv fits d' := by
  cases hs with
  | arrive frame hp =>
      have hearly : Phase.Early d.phase := hp.imp_right .inl
      exact h.early hearly hearly _ _ _
  | @frame frame rest outcome hp hf _ _ quotas _ ord now =>
      have hearly : Phase.Early d.phase := .inl hp
      exact (h.early hearly hearly rest (d.processed + 1) d.serverError).transform hearly hf.1
        (some quotas) outcome ord now
  | pause hp hf _ now => exact (h.takeDue hp hf now timeout).early (.inl hp) (.inl hp) _ _ _
  | tick hp hf _ now => exact h.takeDue hp hf now timeout
  | push hs hr now => exact h.push hs hr now
  | enqueue hr => exact h.enqueue hr
  | stop hp hf reason => exact h.early (.inl hp) (.inr (.inl rfl)) _ _ _
  | close hp => exact h.early (.inr (.inl hp)) (.inr (.inr rfl)) _ _ _
  | @drain frame rest outcome hp hf _ _ ord now =>
      have hearly : Phase.Early d.phase := .inr (.inr hp)
      exact (h.early hearly hearly rest d.processed d.serverError).transform hearly hf.1 none
        outcome ord now
  | @dropFrame frame rest hp hf _ =>
      have hearly : Phase.Early d.phase := .inr (.inr hp)
      exact (h.setPipeline Pipeline.Step.dropFrame rfl rfl id).early hearly hearly _ _ _
  | flush hp hf _ =>
      have htake := h.flow.handOut hf.2 h.flow.good.takes
      refine ⟨⟨htake.assembler, htake.spans, htake.transformed, htake.good, htake.limit,
        htake.small⟩, ⟨fun _ _ => h.phased.open_of_early (.inr (.inr hp)), fun _ => ⟨hf.1, ?_⟩, ?_, ?_⟩,
        h.pipeline, h.closed⟩
      · exact (SpanBatcher.take_spec h.flow.good).2.1
      · simp [Daemon.flush]
      · simp [Daemon.flush]
  | dropQueue hp hf =>
      have hdrop := h.flow.setPipeline (p := { d.pipeline with senderOpen := false }) rfl ⟨rfl, rfl⟩
      exact ⟨⟨hdrop.assembler, hdrop.spans, hdrop.transformed, hdrop.good, hdrop.limit,
        hdrop.small⟩, ⟨fun hw => absurd rfl hw, fun _ => h.phased.flushed (.inl hp),
        fun _ => hf.2, by simp⟩, Pipeline.Step.dropQueue.inv h.pipeline,
        Pipeline.Step.dropQueue.closed_inv h.closed⟩
  | recv hw hq =>
      exact h.setPipeline (.recv hw hq) rfl rfl fun hg => by rw [hw] at hg; cases hg
  | @finish item hw report hr =>
      refine h.setPipeline (.finish hw hr) ?_ ?_ fun hg => by rw [hw] at hg; cases hg
      · rw [Pipeline.finish_eq]
        rfl
      · rw [Pipeline.finish_eq]
        rfl
  | workerEnds hw hq hs => exact h.setPipeline (.closed hw hq hs) rfl rfl fun _ => rfl
  | abort hp =>
      have hsame := Pipeline.foldl_dropBatch_same (d.pipeline.worker.items ++ d.pipeline.queue)
        d.pipeline
      exact h.setPipeline .cancel hsame.1 hsame.2.2.2 fun _ => rfl
  | finished hp hw =>
      exact ⟨⟨h.flow.assembler, h.flow.spans, h.flow.transformed, h.flow.good, h.flow.limit,
        h.flow.small⟩, ⟨fun _ hne => absurd rfl hne, fun _ => h.phased.flushed (.inr (.inl hp)),
        fun _ => h.phased.handedOver (.inl hp), fun _ => hw⟩, h.pipeline, h.closed⟩

end

/-! ## A finished run -/

/-- Where the events of a finished run are.  `trace` is what the assembler did with
them, `held` what it still holds. -/
structure Conserved (fits : Span → Bool) (d : Daemon φ ρ) (trace : List (Emission Span))
    (held : Table PairKey (ℕ × Span)) : Prop where
  transformed : d.pipeline.stats.transformed = d.events.length
  opened : d.assembler.open = mapTable Prod.snd held
  explained : ∀ em ∈ trace, em.Explained rules ⟨openSpanCapacity, openSpanTtl⟩ d.events
  /-- An event that is not held is taken up once, and what takes it up has one fate. -/
  place : ∀ i, i < d.events.length → i ∉ openIds held →
    trace.countP (takes fits i .batched) + trace.countP (takes fits i .oversize) +
      trace.countP (takes fits i .orphan) = 1
  /-- The batches that were offered have the spans of the batched emissions. -/
  batched : d.enqueued = (trace.filter fun em => fate fits em = .batched).flatMap rules.render
  oversize : d.pipeline.stats.spanSize = trace.countP fun em => fate fits em = .oversize
  /-- Only a Stop that joins nothing has no span. -/
  orphan : ∀ em ∈ trace, fate fits em = .orphan → ∃ i e k, em = .dropped i e.item ∧
    d.events[i]? = some e ∧ classify e.item = .stop k
  /-- Every batch that was offered is charged for all its spans. -/
  charged : ∀ i batch, d.pipeline.offered[i]? = some batch →
    Pipeline.chargedFor d.pipeline.ledger i = batch.request.spans.length
  /-- The counters are the charges, and the frames that were dropped at shutdown. -/
  counters : ∀ c, d.pipeline.stats.read c = Pipeline.chargedTo d.pipeline.ledger c +
    if c = .shutdownDropped then d.pipeline.frames else 0

theorem Inv.conserved {fits : Span → Bool} {d : Daemon φ ρ} (h : Inv fits d)
    (hp : d.phase = .finished) : ∃ trace held, Conserved fits d trace held := by
  have hledger := traceRun_ledger rules ⟨openSpanCapacity, openSpanTtl⟩ (by decide) d.events
  have hrun : (default : SpanAssembler).run d.events = _ := SpanAssembler.run_eq d.events _
  have htrace : PairBuffer.run rules ⟨openSpanCapacity, openSpanTtl⟩ ∅ d.events = _ :=
    run_trace rules _ d.events
  obtain ⟨done, hemitted, hdone, hsize⟩ := h.flow.spans
  obtain ⟨hspans, hbatch⟩ := h.phased.flushed (.inr (.inr hp))
  have hready := h.phased.handedOver (.inr hp)
  have hgone := h.phased.workerGone hp
  have hnone : d.pipeline.alive = [] := by
    rw [Pipeline.alive, (h.closed hgone).1, hgone]
    rfl
  have hall : done = (traceRun rules ⟨openSpanCapacity, openSpanTtl⟩ d.events).1.flatMap
      rules.render := by
    rw [hspans, List.append_nil, hrun] at hemitted
    exact hemitted.symm.trans (congrArg Prod.fst htrace)
  rw [buffered, hready, hbatch, List.flatMap_nil, List.append_nil, List.append_nil] at hdone
  have hreconciled := h.pipeline.reconciled
  refine ⟨_, (traceRun rules ⟨openSpanCapacity, openSpanTtl⟩ d.events).2, {
    transformed := h.flow.transformed
    opened := ?_
    explained := hledger.explained
    place := fun i hi hopen => ?_
    batched := by rw [← hdone, hall, filter_rendered]
    oversize := by rw [hsize, hall, countP_rendered]
    orphan := fun em hem hf => ?_
    charged := fun i batch hb => ?_
    counters := hreconciled.counters }⟩
  · rw [h.flow.assembler, hrun]
    exact congrArg Prod.snd htrace
  · have honce := hledger.once hi
    rwa [List.count_eq_zero.mpr hopen, Nat.add_zero, count_ids hledger.explained] at honce
  · cases em with
    | unpaired c i x => by_cases hx : fits (rules.single c x) = true <;> simp [fate, Rules.render, hx] at hf
    | paired i x j y => by_cases hx : fits (rules.join x y) = true <;> simp [fate, Rules.render, hx] at hf
    | dropped i x =>
        obtain ⟨e, he, rfl, k, hk⟩ := hledger.explained _ hem
        exact ⟨i, e, k, rfl, he, hk⟩
  · rw [hreconciled.once i batch hb, hnone, batch.counted]
    simp

/-- **No event is lost on the way**, in a run that has finished, however its steps are
interleaved and whatever ended it. -/
theorem reachable_conserved {produces : φ → Nat → Except String Outcome → Prop} {timeout : Nat}
    {resource : ρ} {batchSize : Nat} {schemaUrl : String} {d : Daemon φ ρ}
    (h : Reachable (· = start resource batchSize schemaUrl) (Step produces timeout) d)
    (hp : d.phase = .finished) : ∃ trace held, Conserved
      (SpanBatcher.withSchema resource batchSize schemaUrl).fits d trace held :=
  (h.invariant (fun _ hd => hd ▸ start_inv resource batchSize schemaUrl)
    fun _ _ hi hs => hs.inv hi).conserved hp

/-! ## Two runs -/

/-- A run with nothing left in hand can be shut down, and the worker aborted. -/
theorem reachable_finished {produces : φ → Nat → Except String Outcome → Prop} {timeout : Nat}
    {init : Daemon φ ρ → Prop} {d : Daemon φ ρ} (h : Reachable init (Step produces timeout) d)
    (hp : d.phase = .running) (hf : d.Free) (hi : d.inbox = []) (hb : d.batch.spans = []) :
    ∃ d', Reachable init (Step produces timeout) d' ∧ d'.phase = .finished ∧
      d'.pipeline = { d.pipeline with senderOpen := false }.cancel := by
  have htake : d.batch.take = (none, d.batch) := by
    unfold SpanBatcher.take
    rw [dif_pos hb]
  have h₁ := (h.tail (.stop hp hf .shutdown)).tail (.close rfl)
  have h₂ := h₁.tail (.flush rfl hf hi)
  have h₃ := h₂.tail (.dropQueue rfl ⟨hf.1, by simp [Daemon.flush, htake]⟩)
  exact ⟨_, (h₃.tail (.abort rfl)).tail (.finished rfl rfl), rfl, rfl⟩

/-- A frame that is the event it becomes. -/
def asGiven (span : Span) (_ : Nat) (outcome : Except String Outcome) : Prop :=
  outcome = .ok ⟨span, none, none⟩

/-- A daemon whose batches have one span. -/
def small : Daemon Span Resource := start ⟨[kvString "service.name" "agent"]⟩ 1 ""

/-- A frame has arrived and is transformed. -/
def smallTransformed (span : Span) : Daemon Span Resource :=
  { small with processed := 1 }.transform (some fun _ _ => true) (.ok ⟨span, none, none⟩) .id 0

theorem reachable_smallTransformed (span : Span) :
    Reachable (· = small) (Step asGiven 0) (smallTransformed span) := by
  have h₀ : Reachable (· = small) (Step asGiven 0) small := .of_init rfl
  have h₁ := h₀.tail (.arrive span (.inl rfl) (by decide))
  exact h₁.tail (.frame rfl ⟨rfl, rfl⟩ (Nat.zero_lt_succ 63) rfl (fun _ _ => true) rfl .id 0)

/-- A tool result without its call. -/
def lonePost : Span := toolSpan "PostToolUse" "conv" "call-1" 5000

/-- Its span is pushed, and fills a batch. -/
def smallPushed : Daemon Span Resource :=
  (smallTransformed lonePost).push (emitUnpaired lonePost) [] 0

/-- It is sent alone, and the deadline passes while it is queued. -/
theorem reachable_conserved_shutdownDropped :
    ∃ d : Daemon Span Resource, d.pipeline.stats.shutdownDropped = 1 ∧
      ∃ trace held, Conserved small.batch.fits d trace held := by
  have h := (reachable_smallTransformed lonePost).tail
    (.push (show _ = emitUnpaired lonePost :: [] by decide) rfl 0)
  have hr : smallPushed.ready = [smallPushed.ready.head (by decide +kernel)] := by rfl
  have h' := h.tail (.enqueue hr)
  obtain ⟨d, hd, hp, hq⟩ := reachable_finished h' (by decide +kernel) ⟨by decide +kernel, rfl⟩ rfl
    (by decide +kernel)
  exact ⟨d, by rw [hq]; decide +kernel, reachable_conserved hd hp⟩

/-- A Stop that finds nothing to close is transformed, and no counter says what became
of it. -/
theorem reachable_uncounted :
    ∃ d : Daemon Span Resource, Reachable (· = small) (Step asGiven 0) d ∧
      d.phase = .finished ∧ d.pipeline.stats.transformed = 1 ∧
      d.pipeline.offered.length = 0 ∧ d.pipeline.stats.spanSize = 0 ∧
      ∀ c, d.pipeline.stats.read c = 0 := by
  have h := reachable_smallTransformed (toolSpan "Stop" "conv" "" 1000)
  obtain ⟨d, hd, hp, hq⟩ := reachable_finished h (by decide) ⟨by decide, rfl⟩ rfl rfl
  refine ⟨d, hd, hp, ?_, ?_, ?_, fun c => ?_⟩ <;> rw [hq]
  · decide
  · decide
  · decide
  · cases c <;> decide

end Daemon

end AgentOtelBridge
