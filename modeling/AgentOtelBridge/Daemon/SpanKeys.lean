import AgentOtelBridge.Daemon.SpanMerge
import AgentOtelBridge.Daemon.Transform

/-!
# The keys of an exported span

A transformed span has no key twice: the slots of the builder and those of the
context report have distinct keys under every setting (`Transformer.span_distinctKeys`).
The assembler keeps it so, since it replaces an attribute or appends one of a new key.
-/

namespace AgentOtelBridge

open Semconv PairBuffer

/-! ## Transformed spans -/

theorem attributeKeys_attributesOf (slots : List Slot) :
    (attributeKeys (attributesOf slots)).Sublist (slots.map Slot.key) := by
  induction slots with
  | nil => exact .slnil
  | cons slot slots ih =>
      rw [attributesOf_cons, List.map_cons]
      unfold attributeKeys at ih ⊢
      cases pushed : slot.attribute? with
      | none => exact ih.cons _
      | some kv =>
          rw [Option.toList_some, List.singleton_append, List.map_cons,
            Slot.key_of_attribute? pushed]
          exact ih.cons_cons _

/-- The keys of the builder and of the report. -/
theorem slots_distinct (event : HookEvent) (input : AgentHookInput) (metadata : ResolvedSpanMetadata)
    (aliases experimental : Bool) (report : ContextReport) :
    ((spanSlots event input metadata aliases experimental ++ report.slots).map Slot.key).Nodup := by
  have fresh : ∀ experimental, ∀ key ∈ spanKeys experimental,
      key ∉ ["agent.context.state", "agent.context.source", "agent.context.age_ms"] := by
    decide +kernel
  have reported : report.slots.map Slot.key =
      ["agent.context.state", "agent.context.source", "agent.context.age_ms"] := rfl
  rw [List.map_append, reported, spanSlots_keys]
  refine List.nodup_append.mpr ⟨spanKeys_distinct experimental, by decide, ?_⟩
  intro key built other there same
  exact fresh experimental key built (same ▸ there)

theorem Transformer.span_distinctKeys (T : Transformer) (salt : UInt32) (p : Prepared) :
    DistinctKeys (T.span salt p) := by
  have attributes : (T.span salt p).attributes =
      attributesOf (spanSlots p.event p.input T.metadata T.aliases T.experimental ++ p.report.slots) := by
    unfold attributesOf
    rw [List.filterMap_append]
    rfl
  rw [DistinctKeys, attributes]
  exact (slots_distinct _ _ _ _ _ _).sublist (attributeKeys_attributesOf _)

/-- The span is one that a transformation returned. -/
def Transformed (span : Span) : Prop :=
  ∃ (T : Transformer) (salt : UInt32) (a : Arrival) (outcome : Outcome),
    T.productionTransformWithWorkspace salt a = .ok outcome ∧ outcome.span = span

theorem Transformed.distinctKeys {span : Span} (transformed : Transformed span) :
    DistinctKeys span := by
  obtain ⟨T, salt, a, outcome, returned, rfl⟩ := transformed
  unfold Transformer.productionTransformWithWorkspace at returned
  cases prepared : T.prepare a with
  | error error =>
      rw [prepared] at returned
      cases returned
  | ok p =>
      rw [prepared] at returned
      obtain rfl := Except.ok.inj returned
      exact T.span_distinctKeys salt p

/-! ## Emitted spans -/

theorem emitUnpaired_distinctKeys {span : Span} (distinct : DistinctKeys span) :
    DistinctKeys (emitUnpaired span) :=
  (Span.upsert_extends { span with endTimeUnixNano := span.startTimeUnixNano } _).distinct distinct

theorem rules_distinctKeys : Sound rules DistinctKeys DistinctKeys fun _ _ => True where
  single _ _ distinct := emitUnpaired_distinctKeys distinct
  orphan _ _ _ sent := absurd sent List.not_mem_nil
  join pre post distinct _ := iff_true_intro ((pair_extends pre post).distinct distinct)

theorem SpanAssembler.run_distinctKeys (capacity ttl : ℕ) (es : List (Event PairKey Span))
    (distinct : ∀ e ∈ es, DistinctKeys e.item) :
    ∀ span ∈ ((SpanAssembler.new capacity ttl).run es).1, DistinctKeys span := by
  have sound := run_sound (SpanAssembler.new capacity ttl).config rules_distinctKeys es (t := ∅)
    (by simp) distinct
  rw [SpanAssembler.run_eq]
  exact sound.mpr fun _ _ _ _ _ _ => trivial

/-- **No span has a key twice**, when it is transformed and when it is emitted. -/
theorem spans_distinctKeys : (∀ span, Transformed span → DistinctKeys span) ∧
    ∀ (capacity ttl : ℕ) (es : List (Event PairKey Span)), (∀ e ∈ es, Transformed e.item) →
      ∀ span ∈ ((SpanAssembler.new capacity ttl).run es).1, DistinctKeys span :=
  ⟨fun _ transformed => transformed.distinctKeys, fun capacity ttl es transformed =>
    SpanAssembler.run_distinctKeys capacity ttl es fun e listed => (transformed e listed).distinctKeys⟩

def invocationTransformer : Transformer :=
  sampleTransformer (Text.asBytes "\x7b\x7d") { conversationId := some "c" } .absolute

/-- An invocation and its stop, transformed. -/
def transformedInvocation : List (Event PairKey Span) :=
  ([1, 5] : List UInt8).filterMap fun eventId =>
    match invocationTransformer.productionTransformWithWorkspace eventId.toUInt32
      (sampleArrival (Text.asBytes "\x7b\x7d") eventId) with
    | .ok outcome => some ⟨outcome.span, eventId.toNat, .id⟩
    | .error _ => none

theorem spans_distinctKeys_invocation : transformedInvocation.length = 2 ∧
    ∀ span ∈ ((SpanAssembler.new 4 100).run transformedInvocation).1, DistinctKeys span := by
  refine ⟨by decide +kernel, spans_distinctKeys.2 4 100 transformedInvocation fun e listed => ?_⟩
  obtain ⟨eventId, -, sent⟩ := List.mem_filterMap.mp listed
  split at sent
  next outcome returned =>
    obtain rfl := Option.some.inj sent
    exact ⟨_, _, _, outcome, returned, rfl⟩
  next => cases sent

end AgentOtelBridge
