import AgentOtelBridge.Daemon.SpanCoherence

/-!
# The two halves of a pair

Joining takes the outcomes from the Post, the tool results that the Pre does not
have, and all else from the Pre (`pair_merged`).  It replaces an attribute in its
place or appends one of a new key, so the keys stay distinct and those of the Pre
keep their positions (`Extends`).
-/

namespace AgentOtelBridge

open Semconv

/-! ## Keys and their positions -/

/-- The keys of some attributes, in their order. -/
def attributeKeys (attributes : List KeyValue) : List String := attributes.map KeyValue.key

/-- The attributes of a span have distinct keys. -/
def DistinctKeys (span : Span) : Prop := (attributeKeys span.attributes).Nodup

instance (span : Span) : Decidable (DistinctKeys span) := by unfold DistinctKeys; infer_instance

/-- The keys keep their positions, and no key comes twice. -/
structure Extends (span span' : Span) : Prop where
  positions : attributeKeys span.attributes <+: attributeKeys span'.attributes
  distinct : DistinctKeys span → DistinctKeys span'

theorem Extends.refl (span : Span) : Extends span span := ⟨List.prefix_refl _, fun h => h⟩

theorem Extends.trans {s s' s'' : Span} (first : Extends s s') (second : Extends s' s'') :
    Extends s s'' :=
  ⟨first.positions.trans second.positions, fun h => second.distinct (first.distinct h)⟩

theorem findKey_eq_none {key : String} {attributes : List KeyValue} :
    findKey key attributes = none ↔ key ∉ attributeKeys attributes := by
  induction attributes with
  | nil => simp [attributeKeys]
  | cons attr attrs ih =>
      rw [findKey_cons, attributeKeys, List.map_cons, List.mem_cons, not_or, ← attributeKeys, ← ih]
      by_cases same : attr.key = key
      · simp [same]
      · simp [same, Ne.symm same]

/-- A key that is there keeps its place, and another one comes last. -/
theorem attributeKeys_upsertAttr (kv : KeyValue) (attributes : List KeyValue) :
    attributeKeys (upsertAttr kv attributes) =
      if kv.key ∈ attributeKeys attributes then attributeKeys attributes else attributeKeys attributes ++ [kv.key] := by
  induction attributes with
  | nil => rfl
  | cons attr attrs ih =>
      unfold attributeKeys at ih ⊢
      rw [upsertAttr]
      by_cases same : attr.key = kv.key
      · simp [same]
      · rw [if_neg same, List.map_cons, ih]
        simp only [List.map_cons, List.mem_cons, Ne.symm same, false_or]
        split <;> rfl

/-- One more key, which was not there. -/
theorem Span.push_extends (span : Span) {kv : KeyValue} (fresh : kv.key ∉ attributeKeys span.attributes) :
    Extends span { span with attributes := span.attributes ++ [kv] } := by
  have keys : attributeKeys (span.attributes ++ [kv]) = attributeKeys span.attributes ++ [kv.key] := by
    simp [attributeKeys]
  refine ⟨?_, fun distinct => ?_⟩
  · rw [keys]
    exact List.prefix_append _ _
  · rw [DistinctKeys, keys]
    exact List.nodup_append.mpr ⟨distinct, List.nodup_singleton _, fun key there other last => by
      rw [List.mem_singleton.mp last]
      exact fun same => fresh (same ▸ there)⟩

theorem Span.upsert_extends (span : Span) (kv : KeyValue) : Extends span (span.upsert kv) := by
  have keys := attributeKeys_upsertAttr kv span.attributes
  by_cases there : kv.key ∈ attributeKeys span.attributes
  · rw [if_pos there] at keys
    refine ⟨?_, fun distinct => ?_⟩
    · show attributeKeys span.attributes <+: attributeKeys (upsertAttr kv span.attributes)
      exact keys.symm ▸ List.prefix_refl _
    · rw [DistinctKeys, Span.upsert, keys]
      exact distinct
  · rw [if_neg there] at keys
    have pushed := span.push_extends there
    have same : attributeKeys (span.attributes ++ [kv]) = attributeKeys (upsertAttr kv span.attributes) := by
      rw [keys]
      simp [attributeKeys]
    refine ⟨?_, fun distinct => ?_⟩
    · show _ <+: attributeKeys (upsertAttr kv span.attributes)
      rw [← same]
      exact pushed.positions
    · show (attributeKeys (upsertAttr kv span.attributes)).Nodup
      rw [← same]
      exact pushed.distinct distinct

theorem foldl_extends (f : Span → String → Span) (step : ∀ s key, Extends s (f s key))
    (keys : List String) (span : Span) : Extends span (keys.foldl f span) := by
  induction keys generalizing span with
  | nil => exact .refl span
  | cons key keys ih => exact (step span key).trans (ih (f span key))

/-! ## The overlay -/

/-- The copies of one pass over the tool results. -/
def copyResults (post : Span) (keys : List String) (pre : Span) : Span :=
  keys.foldl (fun pre key =>
    if (pre.findAttr key).isSome then pre
    else
      match post.findAttr key with
      | some kv => { pre with attributes := pre.attributes ++ [kv] }
      | none => pre) pre

theorem overlayOutcome_eq (pre post : Span) :
    overlayOutcome pre post = copyResults post toolResultIfAbsent (copyOutcomes post outcomeKeys pre) :=
  rfl

theorem copyOutcomes_extends (post : Span) (keys : List String) (pre : Span) :
    Extends pre (copyOutcomes post keys pre) := by
  refine foldl_extends _ (fun s key => ?_) keys pre
  split
  · exact s.upsert_extends _
  · exact .refl s

theorem copyResults_extends (post : Span) (keys : List String) (pre : Span) :
    Extends pre (copyResults post keys pre) := by
  refine foldl_extends _ (fun s key => ?_) keys pre
  split
  · exact .refl s
  next absent =>
    split
    next kv found =>
      refine s.push_extends ?_
      rw [findKey_key found]
      exact findKey_eq_none.mp (by simpa [Span.findAttr] using absent)
    next => exact .refl s

/-- A result that the Pre does not have has the value of the Post. -/
theorem findAttr_copyResults (post : Span) (key : String) (keys : List String) (pre : Span) :
    (copyResults post keys pre).findAttr key =
      if key ∈ keys then (pre.findAttr key).or (post.findAttr key) else pre.findAttr key := by
  induction keys generalizing pre with
  | nil => rfl
  | cons first keys ih =>
      unfold copyResults at ih ⊢
      rw [List.foldl_cons, ih]
      -- What the step makes of the attribute of the key.
      have step : ((if (pre.findAttr first).isSome then pre
          else match post.findAttr first with
            | some kv => { pre with attributes := pre.attributes ++ [kv] }
            | none => pre) : Span).findAttr key =
          if key = first then (pre.findAttr key).or (post.findAttr key) else pre.findAttr key := by
        split
        next there =>
          split
          next same =>
            subst same
            rw [Option.or_of_isSome there]
          next => rfl
        next absent =>
          rw [Option.not_isSome_iff_eq_none] at absent
          split
          next kv found =>
            have keyed : kv.key = first := findKey_key found
            split
            next same =>
              subst same
              rw [absent, found, Option.none_or]
              refine (findKey_append_none absent).trans ?_
              rw [findKey_cons, if_pos keyed]
            next other => exact (pre.push_sameKey (by rw [keyed]; exact Ne.symm other)).find
          next nothing =>
            split
            next same =>
              subst same
              rw [nothing, Option.or_none]
            next => rfl
      rw [step]
      by_cases same : key = first
      · simp [same, Option.or_assoc]
      · simp [same]

/-- The overlay changes the attributes alone. -/
theorem overlayOutcome_frame (pre post : Span) :
    overlayOutcome pre post = { pre with attributes := (overlayOutcome pre post).attributes } := by
  have fold : ∀ (f : Span → String → Span),
      (∀ s key, f s key = { s with attributes := (f s key).attributes }) →
        ∀ (keys : List String) (span : Span),
          keys.foldl f span = { span with attributes := (keys.foldl f span).attributes } := by
    intro f step keys
    induction keys with
    | nil => exact fun span => rfl
    | cons key keys ih =>
        intro span
        rw [List.foldl_cons, ih (f span key), step span key]
  have outcomes : copyOutcomes post outcomeKeys pre =
      { pre with attributes := (copyOutcomes post outcomeKeys pre).attributes } :=
    fold _ (fun s key => by split <;> rfl) outcomeKeys pre
  have results : copyResults post toolResultIfAbsent (copyOutcomes post outcomeKeys pre) = _ :=
    fold _ (fun s key => by split <;> [rfl; (split <;> rfl)]) toolResultIfAbsent _
  rw [overlayOutcome_eq, results, outcomes]

/-! ## Joining -/

/-- The merge of a Pre and a Post, field by field. -/
structure Merged (pre post span : Span) : Prop where
  /-- All but the end, the status and the attributes is the Pre's. -/
  frame : { span with
    endTimeUnixNano := pre.endTimeUnixNano
    status := pre.status
    attributes := pre.attributes } = pre
  finish : span.endTimeUnixNano = max post.endTimeUnixNano pre.startTimeUnixNano
  status : span.status = post.status
  outcome : ∀ key ∈ outcomeKeys, ∀ kv, post.findAttr key = some kv → span.findAttr key = some kv
  result : ∀ key ∈ toolResultIfAbsent, pre.findAttr key = none →
    ∀ kv, post.findAttr key = some kv → span.findAttr key = some kv
  paired : span.findAttr agentSpanPaired = some (kvBool agentSpanPaired true)
  others : ∀ key, key ≠ agentSpanPaired → (key ∈ outcomeKeys → post.findAttr key = none) →
    (key ∈ toolResultIfAbsent → pre.findAttr key = none → post.findAttr key = none) →
      span.findAttr key = pre.findAttr key
  positions : attributeKeys pre.attributes <+: attributeKeys span.attributes
  distinct : DistinctKeys span

theorem pair_extends (pre post : Span) : Extends pre (pair pre post) := by
  rw [pair_eq, overlayOutcome_eq]
  have outcomes := copyOutcomes_extends post outcomeKeys
    { pre with endTimeUnixNano := max pre.startTimeUnixNano post.endTimeUnixNano }
  have results := copyResults_extends post toolResultIfAbsent (copyOutcomes post outcomeKeys
    { pre with endTimeUnixNano := max pre.startTimeUnixNano post.endTimeUnixNano })
  have overlaid := outcomes.trans results
  generalize copyResults _ _ _ = span at overlaid
  have unchanged : Extends pre { span with status := post.status } :=
    ⟨overlaid.positions, overlaid.distinct⟩
  exact unchanged.trans (Span.upsert_extends _ _)

/-- A pair has the end and the status of the two halves, and its attributes apart all else
of the Pre. -/
theorem pair_frame (pre post : Span) :
    pair pre post = { pre with
      endTimeUnixNano := max pre.startTimeUnixNano post.endTimeUnixNano
      status := post.status
      attributes := (pair pre post).attributes } := by
  have frame := overlayOutcome_frame
    { pre with endTimeUnixNano := max pre.startTimeUnixNano post.endTimeUnixNano } post
  rw [pair_eq]
  generalize overlayOutcome _ post = span at frame
  cases span
  simp only [Span.mk.injEq] at frame
  obtain ⟨rfl, rfl, rfl, rfl, rfl, rfl, rfl, rfl, -, -, rfl⟩ := frame
  rfl

/-- An attribute of a pair, by the table its key is in. -/
theorem findAttr_pair (pre post : Span) {key : String} (unmarked : key ≠ agentSpanPaired) :
    (pair pre post).findAttr key =
      if key ∈ outcomeKeys then (post.findAttr key).or (pre.findAttr key)
      else if key ∈ toolResultIfAbsent then (pre.findAttr key).or (post.findAttr key)
      else pre.findAttr key := by
  have disjoint : ∀ key ∈ outcomeKeys, key ∉ toolResultIfAbsent := by decide
  have overlaid := findAttr_copyResults post key toolResultIfAbsent
    (copyOutcomes post outcomeKeys
      { pre with endTimeUnixNano := max pre.startTimeUnixNano post.endTimeUnixNano })
  rw [findAttr_copyOutcomes, ← overlayOutcome_eq] at overlaid
  rw [pair_eq]
  generalize overlayOutcome _ post = span at overlaid
  refine ((Span.upsert_sameKey _ unmarked.symm).find.trans overlaid).trans ?_
  by_cases outcome : key ∈ outcomeKeys
  · rw [if_pos outcome, if_pos outcome, if_neg (disjoint key outcome)]
    rfl
  · rw [if_neg outcome, if_neg outcome]
    rfl

/-- **A pair is the merge of its halves.** -/
theorem pair_merged {pre post : Span} (distinct : DistinctKeys pre) :
    Merged pre post (pair pre post) := by
  have tables : ∀ key ∈ outcomeKeys ++ toolResultIfAbsent, key ≠ agentSpanPaired := by decide
  have disjoint : ∀ key ∈ toolResultIfAbsent, key ∉ outcomeKeys := by decide
  have extends_ := pair_extends pre post
  refine ⟨?_, ?_, ?_, ?_, ?_, ?_, ?_, extends_.positions, extends_.distinct distinct⟩
  · rw [pair_frame]
  · rw [pair_frame, max_comm]
  · rw [pair_frame]
  · intro key outcome kv found
    rw [findAttr_pair pre post (tables key (List.mem_append_left _ outcome)), if_pos outcome, found]
    rfl
  · intro key result absent kv found
    rw [findAttr_pair pre post (tables key (List.mem_append_right _ result)),
      if_neg (disjoint key result), if_pos result, absent, found]
    rfl
  · rw [pair_eq, Span.setPaired, Span.upsert, Span.findAttr, findKey_upsertAttr,
      if_pos (kvBool_key _ _)]
  · intro key unmarked outcome result
    rw [findAttr_pair pre post unmarked]
    split
    next listed => rw [outcome listed, Option.none_or]
    next =>
      split
      next listed =>
        cases there : pre.findAttr key with
        | some kv => rfl
        | none => rw [result listed there, Option.none_or]
      next => rfl

/-- The halves of one call of a tool. -/
theorem pair_merged_toolSpan :
    Merged (toolSpan "PreToolUse" "c" "call" 1) (toolSpan "PostToolUse" "c" "call" 5)
      (pair (toolSpan "PreToolUse" "c" "call" 1) (toolSpan "PostToolUse" "c" "call" 5)) :=
  pair_merged (by decide)

end AgentOtelBridge
