import AgentOtelBridge.Daemon.SpanAssembler

/-!
# What the span assembler emits

Every span that leaves the assembler was observed, or is a Pre joined with a
later Post or Stop, and says which under `agent.span.paired`.  `Accounted`
collects what a run owes to the spans it observed: the bound on the open spans,
the one place of every span, the events behind every emission, and the marks.

Pairing copies attributes from one span to another, so the marks rest on what
`upsert` and the overlay do to the occurrences of one key.
-/

namespace AgentOtelBridge

open Semconv FiniteMap PairBuffer

/-! ## The occurrences of a key -/

theorem countKey_upsertAttr (key : String) (kv : KeyValue) (attrs : List KeyValue) :
    countKey key (upsertAttr kv attrs) =
      if kv.key = key then max 1 (countKey key attrs) else countKey key attrs := by
  induction attrs with
  | nil => simp [upsertAttr, countKey_cons]
  | cons attr attrs ih =>
      rw [upsertAttr]
      by_cases hattr : attr.key = kv.key
      · rw [if_pos hattr, countKey_cons, countKey_cons, hattr]
        split <;> omega
      · rw [if_neg hattr, countKey_cons, countKey_cons, ih]
        by_cases hkey : kv.key = key
        · have : attr.key ≠ key := fun h => hattr (h.trans hkey.symm)
          simp [hkey, this]
        · simp [hkey]

theorem findKey_upsertAttr (key : String) (kv : KeyValue) (attrs : List KeyValue) :
    findKey key (upsertAttr kv attrs) =
      if kv.key = key then some kv else findKey key attrs := by
  induction attrs with
  | nil => simp [upsertAttr, findKey_cons]
  | cons attr attrs ih =>
      rw [upsertAttr]
      by_cases hattr : attr.key = kv.key
      · rw [if_pos hattr, findKey_cons, findKey_cons, hattr]
        split <;> rfl
      · rw [if_neg hattr, findKey_cons, findKey_cons, ih]
        by_cases hkey : kv.key = key
        · have : attr.key ≠ key := fun h => hattr (h.trans hkey.symm)
          simp [hkey, this]
        · simp [hkey]

/-- The attributes of one key are the same in two spans. -/
structure SameKey (key : String) (span span' : Span) : Prop where
  count : countKey key span.attributes = countKey key span'.attributes
  find : span.findAttr key = span'.findAttr key

theorem SameKey.refl (key : String) (span : Span) : SameKey key span span := ⟨rfl, rfl⟩

theorem SameKey.trans {key : String} {s s' s'' : Span} (h : SameKey key s s')
    (h' : SameKey key s' s'') : SameKey key s s'' :=
  ⟨h.count.trans h'.count, h.find.trans h'.find⟩

theorem Span.upsert_sameKey {key : String} {kv : KeyValue} (span : Span) (h : kv.key ≠ key) :
    SameKey key (span.upsert kv) span :=
  ⟨by simp [upsert, countKey_upsertAttr, h], by simp [upsert, findAttr, findKey_upsertAttr, h]⟩

theorem Span.push_sameKey {key : String} {kv : KeyValue} (span : Span) (h : kv.key ≠ key) :
    SameKey key { span with attributes := span.attributes ++ [kv] } span := by
  refine ⟨?_, ?_⟩
  · simp [countKey_append, countKey_cons, h]
  · show findKey key (span.attributes ++ [kv]) = findKey key span.attributes
    cases hf : findKey key span.attributes with
    | some kv' => exact findKey_append_left hf
    | none => rw [findKey_append_none hf, findKey_cons, if_neg h, findKey_nil]

/-- A fold over keys that keeps the attributes of `key` at every other key. -/
theorem foldl_sameKey {key : String} (f : Span → String → Span) :
    ∀ (keys : List String) (span : Span),
      (∀ k ∈ keys, ∀ s, SameKey key (f s k) s) → SameKey key (keys.foldl f span) span
  | [], span, _ => .refl key span
  | k :: keys, span, h =>
      (foldl_sameKey f keys (f span k) fun k' hk' => h k' (.tail _ hk')).trans (h k (.head _) span)

/-- Pairing touches only the keys of the two lists. -/
theorem overlayOutcome_sameKey {key : String} (pre post : Span) (ho : key ∉ outcomeKeys)
    (hr : key ∉ toolResultIfAbsent) : SameKey key (overlayOutcome pre post) pre := by
  refine (foldl_sameKey _ _ _ fun k hk s => ?_).trans (foldl_sameKey _ _ _ fun k hk s => ?_)
  · split
    · exact .refl key s
    · split
      · rename_i kv hkv
        exact s.push_sameKey fun h => hr (h ▸ (findKey_key hkv).symm ▸ hk)
      · exact .refl key s
  · split
    · rename_i kv hkv
      exact s.upsert_sameKey fun h => ho (h ▸ (findKey_key hkv).symm ▸ hk)
    · exact .refl key s

theorem foldl_start (f : Span → String → Span)
    (hf : ∀ s k, (f s k).startTimeUnixNano = s.startTimeUnixNano ∧
      (f s k).endTimeUnixNano = s.endTimeUnixNano) (keys : List String) (span : Span) :
    (keys.foldl f span).startTimeUnixNano = span.startTimeUnixNano ∧
      (keys.foldl f span).endTimeUnixNano = span.endTimeUnixNano := by
  induction keys generalizing span with
  | nil => exact ⟨rfl, rfl⟩
  | cons k keys ih => exact ⟨(ih _).1.trans (hf span k).1, (ih _).2.trans (hf span k).2⟩

/-- Pairing leaves the times of the Pre alone. -/
theorem overlayOutcome_times (pre post : Span) :
    (overlayOutcome pre post).startTimeUnixNano = pre.startTimeUnixNano ∧
      (overlayOutcome pre post).endTimeUnixNano = pre.endTimeUnixNano := by
  unfold overlayOutcome
  extract_lets outcome
  have hout : outcome.startTimeUnixNano = pre.startTimeUnixNano ∧
      outcome.endTimeUnixNano = pre.endTimeUnixNano := by
    refine foldl_start _ (fun s k => ?_) outcomeKeys pre
    split <;> exact ⟨rfl, rfl⟩
  rw [← hout.1, ← hout.2]
  refine foldl_start _ (fun s k => ?_) toolResultIfAbsent outcome
  split
  · exact ⟨rfl, rfl⟩
  · split <;> exact ⟨rfl, rfl⟩

/-! ## The marks -/

/-- The span says once whether it is paired. -/
structure Marked (paired : Bool) (span : Span) : Prop where
  once : countKey agentSpanPaired span.attributes = 1
  value : span.findAttr agentSpanPaired = some (kvBool agentSpanPaired paired)

theorem Span.setPaired_marked {span : Span} (paired : Bool)
    (h : countKey agentSpanPaired span.attributes ≤ 1) : Marked paired (span.setPaired paired) := by
  refine ⟨?_, ?_⟩
  · rw [setPaired, upsert, countKey_upsertAttr, if_pos (kvBool_key _ _)]
    omega
  · rw [setPaired, upsert, findAttr, findKey_upsertAttr, if_pos (kvBool_key _ _)]

theorem emitUnpaired_marked {span : Span} (h : countKey agentSpanPaired span.attributes ≤ 1) :
    Marked false (emitUnpaired span) := Span.setPaired_marked false h

theorem emitUnpaired_times (span : Span) :
    (emitUnpaired span).endTimeUnixNano = (emitUnpaired span).startTimeUnixNano := rfl

/-- A pair is the Pre with the later end, overlaid, under the status of the Post. -/
theorem pair_eq (pre post : Span) :
    pair pre post =
      Span.setPaired { overlayOutcome { pre with
          endTimeUnixNano := max pre.startTimeUnixNano post.endTimeUnixNano } post with
        status := post.status } true := by
  rw [Nat.max_def]
  rfl

theorem pair_marked {pre : Span} (post : Span)
    (h : countKey agentSpanPaired pre.attributes ≤ 1) : Marked true (pair pre post) := by
  have hsame : SameKey agentSpanPaired (overlayOutcome _ post) _ :=
    overlayOutcome_sameKey { pre with
      endTimeUnixNano := max pre.startTimeUnixNano post.endTimeUnixNano } post (by decide)
      (by decide)
  rw [pair_eq]
  generalize overlayOutcome _ post = overlaid at hsame
  exact Span.setPaired_marked true (hsame.count.trans_le h)

theorem pair_times (pre post : Span) :
    (pair pre post).startTimeUnixNano = pre.startTimeUnixNano ∧
      (pair pre post).endTimeUnixNano = max pre.startTimeUnixNano post.endTimeUnixNano := by
  have htimes := overlayOutcome_times { pre with
    endTimeUnixNano := max pre.startTimeUnixNano post.endTimeUnixNano } post
  rw [pair_eq]
  generalize overlayOutcome _ post = overlaid at htimes
  exact htimes

/-! ## A run of the assembler -/

/-- The mark and the times of what is emitted. -/
def Emission.Signed : Emission Span → Prop
  | .unpaired _ _ x =>
      Marked false (emitUnpaired x) ∧
        (emitUnpaired x).endTimeUnixNano = (emitUnpaired x).startTimeUnixNano
  | .paired _ x _ y =>
      Marked true (pair x y) ∧ (pair x y).startTimeUnixNano ≤ (pair x y).endTimeUnixNano
  | .dropped _ _ => True

/-- What a run owes to the spans it observed.  `trace` names the emissions by
the positions of the spans behind them, `held` the open spans by theirs. -/
structure Accounted (capacity ttl : ℕ) (es : List (Event PairKey Span)) (out : List Span)
    (opens : Table PairKey Span) (trace : List (Emission Span))
    (held : Table PairKey (ℕ × Span)) : Prop where
  emitted : out = trace.flatMap rules.render
  opened : opens = mapTable Prod.snd held
  bounded : opens.entries.length ≤ max capacity 1
  /-- Every span but a Stop is open, emitted alone once, or paired once. -/
  place : ∀ i e, es[i]? = some e → (∀ k, classify e.item ≠ .stop k) →
    trace.countP (Emission.alone i) + trace.countP (Emission.joins i) + (openIds held).count i = 1
  /-- A Stop is paired once or dropped, and never emitted alone. -/
  once : ∀ i, i < es.length →
    (trace.flatMap Emission.ids).count i + (openIds held).count i = 1
  /-- An open span is the latest Pre of its key. -/
  stored : ∀ entry ∈ held.entries, Stored rules es entry
  /-- Every emission is what the events at its positions make of it. -/
  explained : ∀ em ∈ trace, em.Explained rules ⟨max capacity 1, ttl⟩ es
  signed : ∀ em ∈ trace, Emission.Signed em

/-- An emission carries the attributes of the first span behind it. -/
theorem signed_of_explained {cfg : Config} {es : List (Event PairKey Span)}
    {em : Emission Span} (h : em.Explained rules cfg es)
    (hmarks : ∀ e ∈ es, countKey agentSpanPaired e.item.attributes ≤ 1) : Emission.Signed em := by
  have hitem : ∀ {i : ℕ} {e : Event PairKey Span} {x : Span}, es[i]? = some e → e.item = x →
      countKey agentSpanPaired x.attributes ≤ 1 :=
    fun he hx => hx ▸ hmarks _ (List.mem_of_getElem? he)
  cases em with
  | unpaired c i x =>
      obtain ⟨e, he, hx, _⟩ := h
      exact ⟨emitUnpaired_marked (hitem he hx), emitUnpaired_times x⟩
  | paired i x j y =>
      obtain ⟨_, e, _, he, hx, _⟩ := h
      refine ⟨pair_marked y (hitem he hx), ?_⟩
      rw [(pair_times x y).1, (pair_times x y).2]
      exact Nat.le_max_left _ _
  | dropped i x => trivial

/-- **The span assembler accounts for every span.**  For every capacity, every
time to live and every sequence of spans and times, from the empty assembler. -/
theorem SpanAssembler.run_accounted (capacity ttl : ℕ) (es : List (Event PairKey Span))
    (hmarks : ∀ e ∈ es, countKey agentSpanPaired e.item.attributes ≤ 1) :
    ∃ trace held, Accounted capacity ttl es ((SpanAssembler.new capacity ttl).run es).1
      ((SpanAssembler.new capacity ttl).run es).2.open trace held := by
  have hcap : 0 < max capacity 1 := Nat.lt_of_lt_of_le Nat.one_pos (Nat.le_max_right _ _)
  have hledger := traceRun_ledger rules ⟨max capacity 1, ttl⟩ hcap es
  have hrun : (SpanAssembler.new capacity ttl).run es = _ := SpanAssembler.run_eq es _
  have htrace : PairBuffer.run rules ⟨max capacity 1, ttl⟩ ∅ es = _ := run_trace rules _ es
  refine ⟨(traceRun rules ⟨max capacity 1, ttl⟩ es).1, (traceRun rules ⟨max capacity 1, ttl⟩ es).2, ?_⟩
  rw [hrun]
  exact {
    emitted := congrArg Prod.fst htrace
    opened := congrArg Prod.snd htrace
    bounded := run_bound hcap es ∅ (Nat.zero_le _)
    place := fun i e he hstop => hledger.place he hstop
    once := fun i hi => hledger.once hi
    stored := hledger.stored
    explained := hledger.explained
    signed := fun em hem => signed_of_explained (hledger.explained em hem) hmarks }

/-! ## Two runs -/

/-- A tool call and its result, five time units apart. -/
def callAndResult : List (Event PairKey Span) :=
  [⟨toolSpan "PreToolUse" "conv" "call-1" 1000, 0, .id⟩,
    ⟨toolSpan "PostToolUse" "conv" "call-1" 5000, 5, .id⟩]

theorem SpanAssembler.run_accounted_callAndResult :
    (((SpanAssembler.new 2 60).run callAndResult).1.map (·.endTimeUnixNano)) = [5000] ∧
    ∃ trace held, Accounted 2 60 callAndResult ((SpanAssembler.new 2 60).run callAndResult).1
      ((SpanAssembler.new 2 60).run callAndResult).2.open trace held :=
  ⟨by decide, SpanAssembler.run_accounted 2 60 callAndResult (by decide)⟩

/-- A span that already says twice whether it is paired still says it twice when
it is emitted: the mark replaces the first occurrence only. -/
theorem SpanAssembler.run_marked_twice :
    (((SpanAssembler.new 2 60).run
        [⟨{ toolSpan "Other" "conv" "call-1" 1000 with
            attributes := [kvBool agentSpanPaired true, kvBool agentSpanPaired true] }, 0, .id⟩]).1.map
      fun span => countKey agentSpanPaired span.attributes) = [2] := by
  decide

end AgentOtelBridge
