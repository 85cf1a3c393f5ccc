import AgentOtelBridge.Daemon.Batch

/-!
# Span batcher accounting

A batcher is called in any order.  A reply holds the batches a call returned and
the spans it accepted; the account of a call is that what was returned and what
is left are what was there and what was accepted, in order.  Accounts of calls
compose, so the account of a run is one induction.
-/

namespace AgentOtelBridge

open Exporter (maxRequestBytes)

namespace SpanBatcher

variable {ρ σ : Type*} [Message ρ] [Message σ]

/-! ## Calls -/

inductive Call (σ : Type*) where
  | tryPush (span : σ) (now : Nat)
  | take
  | takeDue (now maxAge : Nat)

/-- What calls gave back: the batches returned and the spans accepted. -/
structure Reply (ρ σ : Type*) where
  batches : List (ExportBatch ρ σ)
  accepted : List σ

def Reply.append (first second : Reply ρ σ) : Reply ρ σ :=
  ⟨first.batches ++ second.batches, first.accepted ++ second.accepted⟩

/-- The spans of the returned batches. -/
def Reply.returned (reply : Reply ρ σ) : List σ :=
  reply.batches.flatMap fun batch => batch.request.spans

def call (b : SpanBatcher ρ σ) : Call σ → Reply ρ σ × SpanBatcher ρ σ
  | .tryPush span now =>
      match b.tryPush span now with
      | (.ok ready, b) => (⟨ready.toList, [span]⟩, b)
      | (.error _, b) => (⟨[], []⟩, b)
  | .take => (⟨b.take.1.toList, []⟩, b.take.2)
  | .takeDue now maxAge => (⟨(b.takeDue now maxAge).1.toList, []⟩, (b.takeDue now maxAge).2)

def calls : SpanBatcher ρ σ → List (Call σ) → Reply ρ σ × SpanBatcher ρ σ
  | b, [] => (⟨[], []⟩, b)
  | b, c :: cs =>
      let (reply, b) := b.call c
      let (more, b) := b.calls cs
      (reply.append more, b)

/-! ## Accounts -/

/-- A returned batch states its encoded length, which is within the limit. -/
def Measured (batch : ExportBatch ρ σ) : Prop :=
  batch.encodedBytes = encodedLen batch.request ∧ encodedLen batch.request ≤ maxRequestBytes

/-- The account of the calls that lead from one batcher to another. -/
structure Account (before : SpanBatcher ρ σ) (reply : Reply ρ σ) (after : SpanBatcher ρ σ) :
    Prop where
  good : after.Good
  resource : after.resource = before.resource
  schemaUrl : after.schemaUrl = before.schemaUrl
  spans : reply.returned ++ after.spans = before.spans ++ reply.accepted
  measured : ∀ batch ∈ reply.batches, Measured batch

theorem Account.refl {b : SpanBatcher ρ σ} (good : b.Good) : Account b ⟨[], []⟩ b where
  good := good
  resource := rfl
  schemaUrl := rfl
  spans := (List.append_nil b.spans).symm
  measured := nofun

theorem Account.trans {first second third : SpanBatcher ρ σ} {reply more : Reply ρ σ}
    (one : Account first reply second) (two : Account second more third) :
    Account first (reply.append more) third where
  good := two.good
  resource := two.resource.trans one.resource
  schemaUrl := two.schemaUrl.trans one.schemaUrl
  spans := by
    have returned : (reply.append more).returned = reply.returned ++ more.returned :=
      List.flatMap_append
    calc (reply.append more).returned ++ third.spans
        = reply.returned ++ (more.returned ++ third.spans) := by
          rw [returned, List.append_assoc]
      _ = (reply.returned ++ second.spans) ++ more.accepted := by
          rw [two.spans, List.append_assoc]
      _ = first.spans ++ (reply.append more).accepted := by
          rw [one.spans, List.append_assoc, Reply.append]
  measured := by
    intro batch membership
    rcases List.mem_append.mp membership with inFirst | inSecond
    · exact one.measured batch inFirst
    · exact two.measured batch inSecond

/-! ## The account of a call -/

theorem take_account {b : SpanBatcher ρ σ} (good : b.Good) :
    Account b ⟨b.take.1.toList, []⟩ b.take.2 := by
  obtain ⟨goodAfter, -, handed, small⟩ := good.takes
  refine ⟨goodAfter, ?_, ?_, ?_, ?_⟩
  · unfold take
    split <;> rfl
  · unfold take
    split <;> rfl
  · rw [List.append_nil]
    exact handed
  · intro batch membership
    have exact_ : batch.encodedBytes = encodedLen batch.request := by
      rw [Option.mem_toList, take] at membership
      split at membership
      · cases membership
      · cases membership
        rfl
    exact ⟨exact_, exact_ ▸ small batch membership⟩

theorem takeDue_account {b : SpanBatcher ρ σ} (good : b.Good) (now maxAge : Nat) :
    Account b ⟨(b.takeDue now maxAge).1.toList, []⟩ (b.takeDue now maxAge).2 := by
  rcases b.takeDue_cases now maxAge with due | fresh
  · rw [due]
    exact take_account good
  · rw [fresh]
    exact .refl good

theorem append_account {b : SpanBatcher ρ σ} {span : σ} {now : Nat}
    (good : (b.append span now).Good) : Account b ⟨[], [span]⟩ (b.append span now) where
  good := good
  resource := rfl
  schemaUrl := rfl
  spans := rfl
  measured := nofun

/-- The three ways through `try_push`: the span is refused, or it is buffered after
a full request was taken, or it is buffered. -/
theorem tryPush_cases (b : SpanBatcher ρ σ) (span : σ) (now : Nat) :
    b.tryPush span now = (.error "span_size", b) ∨
      b.tryPush span now = (.ok b.take.1, b.take.2.append span now) ∨
      b.tryPush span now = (.ok none, b.append span now) := by
  unfold tryPush
  simp only
  split
  next tooLarge => exact .inl rfl
  next fits =>
    split
    next full => exact .inr (.inl rfl)
    next free => exact .inr (.inr rfl)

/-- A refused span is no part of the account; an accepted one follows what a full
request hands out first. -/
theorem tryPush_account {b : SpanBatcher ρ σ} (good : b.Good) (span : σ) (now : Nat) :
    Account b (b.call (.tryPush span now)).1 (b.call (.tryPush span now)).2 := by
  have goodAfter := (tryPush_spec good span now).1
  rcases b.tryPush_cases span now with refused | full | free
  · rw [call, refused]
    exact .refl good
  · rw [full] at goodAfter
    have composed := (take_account good).trans (append_account goodAfter)
    rw [Reply.append, List.append_nil, List.nil_append] at composed
    rw [call, full]
    exact composed
  · rw [free] at goodAfter
    rw [call, free]
    exact append_account goodAfter

theorem call_account {b : SpanBatcher ρ σ} (good : b.Good) (c : Call σ) :
    Account b (b.call c).1 (b.call c).2 := by
  cases c with
  | tryPush span now => exact tryPush_account good span now
  | take => exact take_account good
  | takeDue now maxAge => exact takeDue_account good now maxAge

theorem calls_account (cs : List (Call σ)) :
    ∀ {b : SpanBatcher ρ σ}, b.Good → Account b (b.calls cs).1 (b.calls cs).2 := by
  induction cs with
  | nil =>
      intro b good
      exact .refl good
  | cons c cs ih =>
      intro b good
      have first := call_account good c
      exact first.trans (ih first.good)

/-- A refused span does not fit a request alone. -/
theorem tryPush_refuses {b : SpanBatcher ρ σ} (good : b.Good) {span : σ} {now : Nat} {error : String}
    (refused : (b.tryPush span now).1 = .error error) :
    maxRequestBytes <
        encodedLen (buildTraceRequestWithSchema b.resource [span] b.schemaUrl) ∧
      (b.tryPush span now).2 = b := by
  have unfit : b.fits span = false := (b.tryPush_error span now).mp ⟨error, refused⟩
  have unchanged := (tryPush_spec good span now).2
  rw [refused] at unchanged
  have alone := good.requestBytes_spans [span]
  simp only [List.map_cons, List.map_nil, List.sum_cons, List.sum_nil, Nat.add_zero] at alone
  rw [← alone]
  exact ⟨Nat.lt_of_not_le (of_decide_eq_false unfit), unchanged⟩

/-- **Span batcher accounting.**  Whatever the calls, the batcher knows the size
of what it holds and of the request it would build, what it returned and holds
is what it accepted, and it refuses only what fits no request. -/
theorem calls_accounted (resource : ρ) (batchSize : Nat) (schemaUrl : String)
    (cs : List (Call σ)) :
    let start : SpanBatcher ρ σ := withSchema resource batchSize schemaUrl
    let reply := (start.calls cs).1
    let b := (start.calls cs).2
    (b.wireBytes = (b.spans.map fun span => delimitedLen (encodedLen span)).sum ∧
        (b.oldest.isSome = true ↔ b.spans ≠ [])) ∧
      (b.requestBytes b.wireBytes =
          encodedLen (buildTraceRequestWithSchema resource b.spans schemaUrl) ∧
        (∀ batch ∈ b.take.1,
          batch.request = buildTraceRequestWithSchema resource b.spans schemaUrl) ∧
        ∀ batch ∈ reply.batches, batch.encodedBytes = encodedLen batch.request ∧
          encodedLen batch.request ≤ maxRequestBytes) ∧
      ((reply.batches.flatMap fun batch => batch.request.spans) ++ b.spans = reply.accepted ∧
        ∀ batch ∈ reply.batches, batch.count = batch.request.spans.length) ∧
      ∀ (span : σ) (now : Nat) (error : String), (b.tryPush span now).1 = .error error →
        maxRequestBytes < encodedLen (buildTraceRequestWithSchema resource [span] schemaUrl) ∧
          (b.tryPush span now).2 = b := by
  intro start reply b
  have account : Account start reply b := calls_account cs (withSchema_good resource batchSize schemaUrl)
  have sameResource : b.resource = resource := account.resource
  have sameSchema : b.schemaUrl = schemaUrl := account.schemaUrl
  refine ⟨⟨?_, b.aged⟩, ⟨?_, ?_, account.measured⟩, ⟨account.spans, ?_⟩, ?_⟩
  · simpa only [fieldBytes_eq] using account.good.wire
  · rw [account.good.requestBytes_eq, sameResource, sameSchema]
  · intro batch taken
    rw [← sameResource, ← sameSchema]
    unfold take at taken
    split at taken
    · cases taken
    · cases taken
      rfl
  · intro batch _
    exact batch.counted
  · intro span now error refused
    rw [← sameResource, ← sameSchema]
    exact tryPush_refuses account.good refused

end SpanBatcher

end AgentOtelBridge
