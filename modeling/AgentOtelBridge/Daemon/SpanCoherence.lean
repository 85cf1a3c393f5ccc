import AgentOtelBridge.Core.Otlp
import AgentOtelBridge.Daemon.SpanPairing
import AgentOtelBridge.Lib.PairBufferOutput

/-!
# The derived attributes of an emitted span

A built span says some things twice: under a legacy alias what it says under the
canonical name, and by `error.type` what it says by its status.  `Coherent` is that
the two always go together.

Joining copies a fixed list of keys from the Post.  The list has the canonical
`agent.fully_idle` without its alias, and an `error.type` of the Pre outlives a
status that the Post replaces.  `Agree` is what a Post must share with its Pre for
neither to show, and a run is coherent exactly when all the spans it joins agree
(`SpanAssembler.run_coherent`).
-/

namespace AgentOtelBridge

open Semconv FiniteMap PairBuffer

/-! ## Coherence -/

/-- The span says that it failed. -/
def Span.failed (span : Span) : Prop := span.status.map Status.code = some statusError

instance (span : Span) : Decidable span.failed := by unfold Span.failed; infer_instance

/-- The canonical keys, each with its alias. -/
def legacyAliases : List (String × String) :=
  [(agentHookEvent, agyHookEvent), (agentTerminationReason, agyTerminationReason),
    (agentStepIndex, agyStepIndex), (agentExecutionNum, agyExecutionNum),
    (agentFullyIdle, agyFullyIdle)]

/-- The value of the first attribute of a key, if it occurs. -/
def Span.attrValue (span : Span) (key : String) : Option (Option AnyValue) :=
  (span.findAttr key).map KeyValue.value

structure Coherent (aliases experimental : Bool) (span : Span) : Prop where
  aliased : aliases = true → ∀ names ∈ legacyAliases,
    span.attrValue names.2 = span.attrValue names.1
  typed : experimental = true → ((span.attrValue errorType).isSome = true ↔ span.failed)

/-- A Post that can be joined with a Pre: it says whether the agent is idle only as
the Pre does, and it failed if the Pre did. -/
structure Agree (aliases experimental : Bool) (pre post : Span) : Prop where
  idle : aliases = true → post.attrValue agentFullyIdle = none ∨
    post.attrValue agentFullyIdle = pre.attrValue agentFullyIdle
  failure : experimental = true → pre.failed → post.failed

/-- A hook span built under one setting of the two flags. -/
def Built (sha256 : List UInt8 → List UInt8) (aliases experimental : Bool) (span : Span) : Prop :=
  ∃ event input start finish salt context metadata,
    span = buildSpanFromResolved sha256 event input start finish salt context metadata aliases
      experimental

/-! ## Built spans -/

/-- A slot and its alias push the same value. -/
theorem attrValue_alias {event : HookEvent} {input : AgentHookInput}
    {metadata : ResolvedSpanMetadata} {experimental : Bool} (slot : Slot) {other : String}
    (canonical : slot ∈ spanSlots event input metadata true experimental)
    (legacy : ⟨other, slot.value⟩ ∈ spanSlots event input metadata true experimental) :
    (findKey other (attributesOf (spanSlots event input metadata true experimental))).map
        KeyValue.value =
      (findKey slot.key (attributesOf (spanSlots event input metadata true experimental))).map
        KeyValue.value := by
  have found := findKey_build canonical
  have foundLegacy := findKey_build legacy
  simp only at foundLegacy
  rw [found, foundLegacy]
  simp only [Slot.attribute?, Option.map_map]
  rfl

theorem errorType_build (event : HookEvent) (input : AgentHookInput)
    (metadata : ResolvedSpanMetadata) (aliases : Bool) :
    (findKey errorType (attributesOf (spanSlots event input metadata aliases true))).isSome =
      input.errored := by
  have present : Slot.onlyIf (true && input.errored) (.string errorType (some input.spanErrorType)) ∈
      spanSlots event input metadata aliases true := by
    simp [spanSlots, outcomeSlots]
  have found := findKey_build present
  simp only [Slot.onlyIf, Slot.string] at found
  rw [found]
  cases input.errored <;> rfl

/-- A built span is coherent. -/
theorem Built.coherent {sha256 : List UInt8 → List UInt8} {aliases experimental : Bool}
    {span : Span} (built : Built sha256 aliases experimental span) :
    Coherent aliases experimental span := by
  obtain ⟨event, input, start, finish, salt, context, metadata, rfl⟩ := built
  constructor
  · rintro rfl names listed
    simp only [legacyAliases, List.mem_cons, List.not_mem_nil, or_false] at listed
    rcases listed with rfl | rfl | rfl | rfl | rfl
    · exact attrValue_alias (.string agentHookEvent (some event.asStr))
        (by simp [spanSlots, agentSlots]) (by simp [spanSlots, agentSlots, Slot.onlyIf, Slot.string])
    · exact attrValue_alias (.string agentTerminationReason input.terminationReason)
        (by simp [spanSlots, hookSlots]) (by simp [spanSlots, hookSlots, Slot.onlyIf, Slot.string])
    · exact attrValue_alias (.uint64 agentStepIndex input.stepIdx)
        (by simp [spanSlots, hookSlots])
        (by simp [spanSlots, hookSlots, Slot.onlyIf, Slot.uint64, Slot.int])
    · exact attrValue_alias (.int agentExecutionNum input.executionNum)
        (by simp [spanSlots, hookSlots]) (by simp [spanSlots, hookSlots, Slot.onlyIf, Slot.int])
    · exact attrValue_alias (.bool agentFullyIdle input.fullyIdle)
        (by simp [spanSlots, hookSlots]) (by simp [spanSlots, hookSlots, Slot.onlyIf, Slot.bool])
  · rintro rfl
    have failed := spanStatus_code input true
    have typed := errorType_build event input metadata aliases
    simp only [Span.attrValue, Option.isSome_map, Span.failed, buildSpanFromResolved,
      Option.map_some, Option.some.injEq, Span.findAttr]
    rw [typed, failed]

/-! ## Joined spans -/

/-- Coherence is a matter of the attributes, the mark apart, and of the status. -/
theorem Coherent.congr {aliases experimental : Bool} {span span' : Span}
    (values : ∀ key, key ≠ agentSpanPaired → span'.attrValue key = span.attrValue key)
    (status : span'.status = span.status) :
    Coherent aliases experimental span' ↔ Coherent aliases experimental span := by
  have failed : span'.failed ↔ span.failed := by unfold Span.failed; rw [status]
  have unmarked : ∀ names ∈ legacyAliases,
      names.1 ≠ agentSpanPaired ∧ names.2 ≠ agentSpanPaired := by decide
  have typed := values errorType (by decide)
  have aliased : ∀ names ∈ legacyAliases,
      (span'.attrValue names.2 = span'.attrValue names.1 ↔
        span.attrValue names.2 = span.attrValue names.1) := by
    intro names listed
    obtain ⟨canonical, legacy⟩ := unmarked names listed
    rw [values _ canonical, values _ legacy]
  constructor
  · rintro ⟨sameNames, sameFailure⟩
    refine ⟨fun on names listed => (aliased names listed).mp (sameNames on names listed), fun on => ?_⟩
    rw [← typed, ← failed]
    exact sameFailure on
  · rintro ⟨sameNames, sameFailure⟩
    refine ⟨fun on names listed => (aliased names listed).mpr (sameNames on names listed), fun on => ?_⟩
    rw [typed, failed]
    exact sameFailure on

theorem attrValue_setPaired (span : Span) (paired : Bool) {key : String}
    (unmarked : key ≠ agentSpanPaired) : (span.setPaired paired).attrValue key = span.attrValue key :=
  congrArg (Option.map KeyValue.value) (span.upsert_sameKey unmarked.symm).find

theorem emitUnpaired_coherent {aliases experimental : Bool} {span : Span} :
    Coherent aliases experimental (emitUnpaired span) ↔ Coherent aliases experimental span :=
  Coherent.congr (fun _ unmarked => attrValue_setPaired _ false unmarked) rfl

/-- The copies of one pass over outcome keys. -/
def copyOutcomes (post : Span) (keys : List String) (pre : Span) : Span :=
  keys.foldl (fun pre key =>
    match post.findAttr key with
    | some kv => pre.upsert kv
    | none => pre) pre

/-- A copied key has the value of the Post, or what the Pre had. -/
theorem findAttr_copyOutcomes (post : Span) {key : String} (keys : List String) (pre : Span) :
    (copyOutcomes post keys pre).findAttr key =
      if key ∈ keys then (post.findAttr key).or (pre.findAttr key) else pre.findAttr key := by
  induction keys generalizing pre with
  | nil => rfl
  | cons first keys ih =>
      unfold copyOutcomes at ih ⊢
      rw [List.foldl_cons, ih]
      cases found : post.findAttr first with
      | none =>
          by_cases same : key = first
          · subst same
            simp [found]
          · simp [same]
      | some kv =>
          have keyed : kv.key = first := findKey_key found
          by_cases same : key = first
          · subst same
            have kept : (pre.upsert kv).findAttr key = some kv := by
              simp [Span.upsert, Span.findAttr, findKey_upsertAttr, keyed]
            simp [found, kept]
          · have kept : (pre.upsert kv).findAttr key = pre.findAttr key :=
              (pre.upsert_sameKey (by rw [keyed]; exact Ne.symm same)).find
            simp [same, kept]

/-- The overlay takes an outcome from the Post, if it is there. -/
theorem findAttr_overlayOutcome (pre post : Span) {key : String} (outcome : key ∈ outcomeKeys)
    (other : key ∉ toolResultIfAbsent) :
    (overlayOutcome pre post).findAttr key = (post.findAttr key).or (pre.findAttr key) := by
  have results : SameKey key (overlayOutcome pre post) (copyOutcomes post outcomeKeys pre) := by
    refine foldl_sameKey _ _ _ fun k listed s => ?_
    split
    · exact .refl key s
    · split
      next kv found => exact s.push_sameKey fun same => other (same ▸ (findKey_key found).symm ▸ listed)
      next => exact .refl key s
  rw [results.find, findAttr_copyOutcomes, if_pos outcome]

/-- A key that is not copied keeps the value of the Pre. -/
theorem attrValue_pair_kept (pre post : Span) {key : String} (unmarked : key ≠ agentSpanPaired)
    (outcome : key ∉ outcomeKeys) (result : key ∉ toolResultIfAbsent) :
    (pair pre post).attrValue key = pre.attrValue key := by
  have kept : SameKey key (overlayOutcome _ post) _ := overlayOutcome_sameKey
    { pre with endTimeUnixNano := max pre.startTimeUnixNano post.endTimeUnixNano } post outcome result
  rw [pair_eq]
  generalize overlayOutcome _ post = overlaid at kept
  rw [attrValue_setPaired _ true unmarked]
  exact congrArg (Option.map KeyValue.value) kept.find

/-- An outcome has the value of the Post, or what the Pre had. -/
theorem attrValue_pair_outcome (pre post : Span) {key : String} (unmarked : key ≠ agentSpanPaired)
    (outcome : key ∈ outcomeKeys) (other : key ∉ toolResultIfAbsent) :
    (pair pre post).attrValue key = (post.attrValue key).or (pre.attrValue key) := by
  have copied := findAttr_overlayOutcome
    { pre with endTimeUnixNano := max pre.startTimeUnixNano post.endTimeUnixNano } post outcome other
  rw [pair_eq]
  generalize overlayOutcome _ post = overlaid at copied
  rw [attrValue_setPaired _ true unmarked]
  refine (congrArg (Option.map KeyValue.value) copied).trans ?_
  show ((post.findAttr key).or (pre.findAttr key)).map KeyValue.value = _
  exact Option.map_or

theorem pair_failed (pre post : Span) : (pair pre post).failed ↔ post.failed := by
  rw [pair_eq]
  generalize overlayOutcome _ post = overlaid
  exact Iff.rfl

/-- **A joined span is coherent exactly when its Post agrees with its Pre.** -/
theorem pair_coherent {aliases experimental : Bool} {pre post : Span}
    (before : Coherent aliases experimental pre) (after : Coherent aliases experimental post) :
    Coherent aliases experimental (pair pre post) ↔ Agree aliases experimental pre post := by
  have idle : (pair pre post).attrValue agentFullyIdle = _ :=
    attrValue_pair_outcome pre post (by decide) (by decide) (by decide)
  have idleAlias : (pair pre post).attrValue agyFullyIdle = _ :=
    attrValue_pair_kept pre post (by decide) (by decide) (by decide)
  have typed : (pair pre post).attrValue errorType = _ :=
    attrValue_pair_outcome pre post (by decide) (by decide) (by decide)
  constructor
  · rintro ⟨sameNames, sameFailure⟩
    refine ⟨fun on => ?_, fun on failed => ?_⟩
    · have same := sameNames on (agentFullyIdle, agyFullyIdle) (by decide)
      have samePre := before.aliased on (agentFullyIdle, agyFullyIdle) (by decide)
      simp only [idle, idleAlias] at same
      simp only at samePre
      rw [samePre] at same
      cases found : post.attrValue agentFullyIdle with
      | none => exact .inl rfl
      | some value =>
          rw [found] at same
          exact .inr same.symm
    · have copied : ((pair pre post).attrValue errorType).isSome = true := by
        rw [typed, Option.isSome_or, (before.typed on).mpr failed, Bool.or_true]
      exact (pair_failed pre post).mp ((sameFailure on).mp copied)
  · rintro ⟨sameIdle, sameFailure⟩
    refine ⟨fun on names listed => ?_, fun on => ?_⟩
    · have samePre := before.aliased on names listed
      have samePost := after.aliased on names listed
      simp only [legacyAliases, List.mem_cons, List.not_mem_nil, or_false] at listed
      rcases listed with rfl | rfl | rfl | rfl | rfl
      · rwa [attrValue_pair_kept pre post (by decide) (by decide) (by decide),
          attrValue_pair_kept pre post (by decide) (by decide) (by decide)]
      · rw [attrValue_pair_outcome pre post (by decide) (by decide) (by decide),
          attrValue_pair_outcome pre post (by decide) (by decide) (by decide), samePre, samePost]
      · rwa [attrValue_pair_kept pre post (by decide) (by decide) (by decide),
          attrValue_pair_kept pre post (by decide) (by decide) (by decide)]
      · rwa [attrValue_pair_kept pre post (by decide) (by decide) (by decide),
          attrValue_pair_kept pre post (by decide) (by decide) (by decide)]
      · simp only at samePre
        rw [idle, idleAlias, samePre]
        rcases sameIdle on with absent | same
        · rw [absent, Option.none_or]
        · rw [same, Option.or_self]
    · rw [typed, Option.isSome_or, Bool.or_eq_true, after.typed on, before.typed on, pair_failed]
      exact or_iff_left_of_imp (sameFailure on)

/-! ## A run of the assembler -/

theorem rules_sound (sha256 : List UInt8 → List UInt8) (aliases experimental : Bool) :
    Sound rules (Built sha256 aliases experimental) (Coherent aliases experimental)
      (Agree aliases experimental) where
  single _ _ built := emitUnpaired_coherent.mpr built.coherent
  orphan _ _ _ sent := absurd sent (List.not_mem_nil)
  join _ _ before after := pair_coherent before.coherent after.coherent

/-- At every step of a run, the span that arrives agrees with the open span it is
joined with. -/
def JoinsAgree (aliases experimental : Bool) (assembler : SpanAssembler)
    (es : List (Event PairKey Span)) : Prop :=
  ∀ front e back, es = front ++ e :: back → ∀ «open»,
    Joins rules assembler.config (assembler.run front).2.open e.item e.now «open» →
      Agree aliases experimental «open».item e.item

/-- **Every span a run emits is coherent** exactly when the spans it joins agree. -/
theorem SpanAssembler.run_coherent (sha256 : List UInt8 → List UInt8) (aliases experimental : Bool)
    (capacity ttl : ℕ) (es : List (Event PairKey Span))
    (built : ∀ e ∈ es, Built sha256 aliases experimental e.item) :
    (∀ span ∈ ((SpanAssembler.new capacity ttl).run es).1, Coherent aliases experimental span) ↔
      JoinsAgree aliases experimental (.new capacity ttl) es := by
  have sound := run_sound (SpanAssembler.new capacity ttl).config
    (rules_sound sha256 aliases experimental) es (t := ∅) (by simp) built
  rw [SpanAssembler.run_eq]
  refine sound.trans ?_
  unfold JoinsAgree
  simp only [SpanAssembler.run_eq]
  exact Iff.rfl

/-- An invocation of one conversation, and its stop. -/
def invocationAndStop (aliases experimental : Bool) (atStart atStop : AgentHookInput) :
    List (Event PairKey Span) :=
  let hook (event : HookEvent) (input : AgentHookInput) (now : ℕ) : Event PairKey Span :=
    ⟨buildSpanFromResolved (fun _ => List.replicate 32 1) event
      { input with conversationId := some "c" } now now 0 ⟨List.replicate 16 1, none, 1⟩ {} aliases
      experimental, now, .id⟩
  [hook .preInvocation atStart 1, hook .stop atStop 2]

theorem invocationAndStop_built {aliases experimental : Bool} {atStart atStop : AgentHookInput} :
    ∀ e ∈ invocationAndStop aliases experimental atStart atStop,
      Built (fun _ => List.replicate 32 1) aliases experimental e.item := by
  intro e listed
  simp only [invocationAndStop, List.mem_cons, List.not_mem_nil, or_false] at listed
  rcases listed with rfl | rfl
  · exact ⟨.preInvocation, _, _, _, _, _, _, rfl⟩
  · exact ⟨.stop, _, _, _, _, _, _, rfl⟩

theorem SpanAssembler.run_coherent_invocationAndStop :
    (∀ span ∈ ((SpanAssembler.new 4 100).run
        (invocationAndStop true true { fullyIdle := some true } { error := some "boom" })).1,
      Coherent true true span) ↔
      JoinsAgree true true (.new 4 100)
        (invocationAndStop true true { fullyIdle := some true } { error := some "boom" }) :=
  SpanAssembler.run_coherent _ true true 4 100 _ invocationAndStop_built

/-- An agent that is idle at its stop has the canonical key without the alias; a
failure that a clean stop follows keeps its type. -/
theorem SpanAssembler.run_incoherent :
    (¬ ∀ (sha256 : List UInt8 → List UInt8) (capacity ttl : ℕ) (es : List (Event PairKey Span)),
      (∀ e ∈ es, Built sha256 true false e.item) →
        ∀ span ∈ ((SpanAssembler.new capacity ttl).run es).1, Coherent true false span) ∧
    ¬ ∀ (sha256 : List UInt8 → List UInt8) (capacity ttl : ℕ) (es : List (Event PairKey Span)),
      (∀ e ∈ es, Built sha256 false true e.item) →
        ∀ span ∈ ((SpanAssembler.new capacity ttl).run es).1, Coherent false true span := by
  constructor
  · intro claim
    have coherent := claim _ openSpanCapacity openSpanTtl
      (invocationAndStop true false {} { fullyIdle := some true }) invocationAndStop_built
    have emitted : ∃ span ∈ ((SpanAssembler.new openSpanCapacity openSpanTtl).run
        (invocationAndStop true false {} { fullyIdle := some true })).1,
        span.attrValue agyFullyIdle ≠ span.attrValue agentFullyIdle := by
      decide +kernel
    obtain ⟨span, sent, differ⟩ := emitted
    exact differ ((coherent span sent).aliased rfl (agentFullyIdle, agyFullyIdle) (by decide))
  · intro claim
    have coherent := claim _ openSpanCapacity openSpanTtl
      (invocationAndStop false true { error := some "boom" } {}) invocationAndStop_built
    have emitted : ∃ span ∈ ((SpanAssembler.new openSpanCapacity openSpanTtl).run
        (invocationAndStop false true { error := some "boom" } {})).1,
        (span.attrValue errorType).isSome = true ∧ ¬ span.failed := by
      decide +kernel
    obtain ⟨span, sent, errorTyped, clean⟩ := emitted
    exact clean (((coherent span sent).typed rfl).mp errorTyped)

end AgentOtelBridge
