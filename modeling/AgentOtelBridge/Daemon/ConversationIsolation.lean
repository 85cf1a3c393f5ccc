import AgentOtelBridge.Daemon.SpanPairing
import AgentOtelBridge.Lib.PairBufferIsolation

/-!
# Conversations in the span assembler

Two conversations share the assembler.  A pair key carries the conversation,
unless the event has a tool call id: then the id alone is the key.  So two
conversations that share no tool call id never meet under one key, and what the
assembler emits for one of them does not depend on the other.  An absent
conversation is keyed as the empty one.
-/

namespace AgentOtelBridge

open Semconv FiniteMap PairBuffer

def conversation (span : Span) : Option String := span.attrStr genAiConversationId

/-! ## Keys and conversations -/

theorem classify_key {s : Span} {k : PairKey} (h : (classify s).key? = some k) :
    k = toolKey s ∨ k = invokeKey s := by
  unfold classify at h
  cases hev : hookEvent s with
  | unknown => simp only [hev, Action.key?, reduceCtorEq] at h
  | preToolUse => exact .inl (Option.some.inj (by simpa only [hev, Action.key?] using h)).symm
  | postToolUse => exact .inl (Option.some.inj (by simpa only [hev, Action.key?] using h)).symm
  | preInvocation => exact .inr (Option.some.inj (by simpa only [hev, Action.key?] using h)).symm
  | postInvocation => exact .inr (Option.some.inj (by simpa only [hev, Action.key?] using h)).symm
  | stop => exact .inr (Option.some.inj (by simpa only [hev, Action.key?] using h)).symm

theorem toolKey_cases (s : Span) :
    (∃ id, toolCallId s = some id ∧ toolKey s = .toolCall id) ∨
      ∃ step tool, toolKey s = .toolFallback ((conversation s).getD "") step tool := by
  unfold toolKey
  cases toolCallId s with
  | some id => exact .inl ⟨id, rfl, rfl⟩
  | none => exact .inr ⟨_, _, rfl⟩

/-- Two events with one key share a tool call id or a conversation. -/
theorem classify_key_cases {x y : Span} {k : PairKey} (hx : (classify x).key? = some k)
    (hy : (classify y).key? = some k) :
    (∃ id, toolCallId x = some id ∧ toolCallId y = some id) ∨
      (conversation x).getD "" = (conversation y).getD "" := by
  rcases classify_key hx with rfl | rfl <;> rcases classify_key hy with hy | hy
  · rcases toolKey_cases x with ⟨id, hidx, hx⟩ | ⟨_, _, hx⟩ <;>
      rcases toolKey_cases y with ⟨id', hidy, hy'⟩ | ⟨_, _, hy'⟩ <;>
      rw [hx, hy'] at hy
    · rw [PairKey.toolCall.injEq] at hy
      exact .inl ⟨id, hidx, hy ▸ hidy⟩
    · cases hy
    · cases hy
    · rw [PairKey.toolFallback.injEq] at hy
      exact .inr hy.1
  · rcases toolKey_cases x with ⟨_, _, hx⟩ | ⟨_, _, hx⟩ <;> cases hx.symm.trans hy
  · rcases toolKey_cases y with ⟨_, _, hy'⟩ | ⟨_, _, hy'⟩ <;> cases hy.trans hy'
  · rw [invokeKey, invokeKey, PairKey.invoke.injEq] at hy
    exact .inr hy

/-- An emitted span belongs to the conversation of the span it carries. -/
theorem conversation_emitUnpaired (span : Span) :
    conversation (emitUnpaired span) = conversation span := by
  have h : SameKey genAiConversationId (emitUnpaired span) _ := Span.upsert_sameKey
    { span with endTimeUnixNano := span.startTimeUnixNano } (by decide)
  exact congrArg (Option.bind · KeyValue.str?) h.find

theorem conversation_pair (pre post : Span) :
    conversation (pair pre post) = conversation pre := by
  have hsame : SameKey genAiConversationId (overlayOutcome _ post) _ :=
    overlayOutcome_sameKey { pre with
      endTimeUnixNano := max pre.startTimeUnixNano post.endTimeUnixNano } post (by decide)
      (by decide)
  rw [pair_eq]
  generalize overlayOutcome _ post = overlaid at hsame
  have hset : SameKey genAiConversationId
      (Span.setPaired { overlaid with status := post.status } true) _ :=
    Span.upsert_sameKey _ (by decide)
  exact congrArg (Option.bind · KeyValue.str?) (hset.find.trans hsame.find)

theorem rules_owned (c : Option String) :
    Owned rules (fun span => decide (conversation span = c))
      (fun span => decide (conversation span = c)) where
  single _ x := by simp only [rules, conversation_emitUnpaired]
  join x y := by simp only [rules, conversation_pair]
  orphan x b hb := by simp [rules] at hb

/-! ## The runs -/

/-- Two streams of events that never share a key: their conversations differ,
the absent one read as the empty one, and they have no tool call id in common. -/
structure Unrelated (c c' : Option String) (es : List (Event PairKey Span)) : Prop where
  streams : ∀ e ∈ es, conversation e.item = c ∨ conversation e.item = c'
  differ : c.getD "" ≠ c'.getD ""
  ids : ∀ e ∈ es, ∀ e' ∈ es, conversation e.item = c → conversation e'.item = c' →
    toolCallId e.item ≠ none → toolCallId e.item ≠ toolCallId e'.item

/-- What the assembler emits for the conversation `c` in the joint run is what it
emits in the run of that conversation alone, and the spans that the lone
assembler still holds although they are past their time to live; and every pair
of the joint run has both halves in one conversation. -/
structure KeptApart (capacity ttl : ℕ) (c : Option String) (es fs : List (Event PairKey Span)) :
    Prop where
  same : ∃ early : List (Sigma fun _ : PairKey => Entry Span),
    (∀ e ∈ early, e ∈ ((SpanAssembler.new capacity ttl).run fs).2.open.entries ∧
      ttl ≤ lastTime 0 es - e.2.opened) ∧
    ((((SpanAssembler.new capacity ttl).run es).1.filter fun span => conversation span = c)).Perm
      (((SpanAssembler.new capacity ttl).run fs).1 ++ early.map fun e => emitUnpaired e.2.item)
  pairs : ∃ trace : List (Emission Span),
    ((SpanAssembler.new capacity ttl).run es).1 = trace.flatMap rules.render ∧
    (∀ em ∈ trace, em.Explained rules ⟨max capacity 1, ttl⟩ es) ∧
    ∀ i x j y, .paired i x j y ∈ trace → conversation x = conversation y

section
variable {c c' : Option String} {es : List (Event PairKey Span)}

/-- Two events under one key are of one conversation. -/
theorem Unrelated.same_key (h : Unrelated c c' es) {e e' : Event PairKey Span} {k : PairKey}
    (he : e ∈ es) (he' : e' ∈ es) (hk : (classify e.item).key? = some k)
    (hk' : (classify e'.item).key? = some k) : conversation e.item = conversation e'.item := by
  have hcross : ∀ {a b : Event PairKey Span}, a ∈ es → b ∈ es →
      (classify a.item).key? = some k → (classify b.item).key? = some k →
      conversation a.item = c → conversation b.item = c' → False := by
    intro a b ha hb hka hkb hca hcb
    rcases classify_key_cases hka hkb with ⟨id, hida, hidb⟩ | hconv
    · exact h.ids a ha b hb hca hcb (by rw [hida]; exact Option.some_ne_none id)
        (hida.trans hidb.symm)
    · rw [hca, hcb] at hconv
      exact h.differ hconv
  rcases h.streams e he with hc | hc <;> rcases h.streams e' he' with hc' | hc'
  · exact hc.trans hc'.symm
  · exact (hcross he he' hk hk' hc hc').elim
  · exact (hcross he' he hk' hk hc' hc).elim
  · exact hc.trans hc'.symm

/-- The keys of the conversation `c`. -/
def keysOf (c : Option String) (es : List (Event PairKey Span)) (k : PairKey) : Bool :=
  es.any fun e => conversation e.item = c && (classify e.item).key? = some k

theorem Unrelated.keysOf (h : Unrelated c c' es) {e : Event PairKey Span} (he : e ∈ es)
    {k : PairKey} (hk : (classify e.item).key? = some k) :
    keysOf c es k = decide (conversation e.item = c) := by
  by_cases hc : conversation e.item = c
  · rw [decide_eq_true hc]
    exact List.any_eq_true.mpr ⟨e, he, by simp [hc, hk]⟩
  · rw [decide_eq_false hc]
    refine List.any_eq_false.mpr fun e' he' hmine => hc ?_
    simp only [Bool.and_eq_true, decide_eq_true_eq] at hmine
    exact (h.same_key he he' hk hmine.2).trans hmine.1

/-- **Conversations do not meet in the assembler.**  For every interleaving of
two unrelated streams at nondecreasing times whose open spans stay below the
capacity, and whatever the iteration orders of the two runs. -/
theorem SpanAssembler.run_keptApart (capacity ttl : ℕ) (es fs : List (Event PairKey Span))
    (h : Unrelated c c' es) (hsorted : es.Pairwise fun e e' => e.now ≤ e'.now)
    (hroom : ∀ n, ((SpanAssembler.new capacity ttl).run (es.take n)).2.open.entries.length <
      capacity)
    (hsolo : List.Forall₂ SameEvent (es.filter fun e => conversation e.item = c) fs) :
    KeptApart capacity ttl c es fs := by
  have hcap : 0 < capacity := Nat.zero_lt_of_lt (hroom 0)
  have hmax : max capacity 1 = capacity := Nat.max_eq_left hcap
  have hrun : ∀ gs, (SpanAssembler.new capacity ttl).run gs =
      ((PairBuffer.run rules ⟨max capacity 1, ttl⟩ ∅ gs).1,
        (SpanAssembler.new capacity ttl).withOpen
          (PairBuffer.run rules ⟨max capacity 1, ttl⟩ ∅ gs).2) :=
    fun gs => SpanAssembler.run_eq gs _
  have hbound : ∀ n, (PairBuffer.run rules ⟨max capacity 1, ttl⟩ ∅ (es.take n)).2.entries.length <
      (⟨max capacity 1, ttl⟩ : Config).capacity := fun n => by
    simpa [hrun, hmax, withOpen] using hroom n
  refine ⟨?_, ?_⟩
  · obtain ⟨early, hiso⟩ := PairBuffer.run_isolated (rules_owned c) (P := AgentOtelBridge.keysOf c es)
      es fs (fun e he k hk => h.keysOf he hk) hsorted hbound hsolo
    refine ⟨early, fun e he => ⟨?_, ?_⟩, ?_⟩
    · rw [hrun]
      exact hiso.split.mem_iff.mpr (List.mem_append_right _ he)
    · exact of_decide_eq_true (hiso.stale e he)
    · rw [hrun, hrun]
      exact hiso.out
  · have hledger := traceRun_ledger rules ⟨max capacity 1, ttl⟩ (hmax.symm ▸ hcap) es
    refine ⟨(traceRun rules ⟨max capacity 1, ttl⟩ es).1, ?_, hledger.explained, ?_⟩
    · rw [hrun]
      exact congrArg Prod.fst (run_trace rules ⟨max capacity 1, ttl⟩ es)
    · intro i x j y hem
      obtain ⟨k, e, e', he, hx, he', hy, _, ho, hc, _⟩ := hledger.explained _ hem
      have hk : (classify e.item).key? = some k := by
        rw [hx, show classify x = .open k from ho]
        rfl
      have hk' : (classify e'.item).key? = some k := by
        rcases hc with hc | hc <;>
        · rw [hy, show classify y = _ from hc]
          rfl
      rw [← hx, ← hy]
      exact h.same_key (List.mem_of_getElem? he) (List.mem_of_getElem? he') hk hk'

end

/-! ## Two conversations, and one tool call id in both -/

/-- A call in one conversation and, inside it, a call with its result in another. -/
def nestedCalls : List (Event PairKey Span) :=
  [⟨toolSpan "PreToolUse" "a" "call-1" 1000, 0, .id⟩,
    ⟨toolSpan "PreToolUse" "b" "call-2" 2000, 1, .id⟩,
    ⟨toolSpan "PostToolUse" "b" "call-2" 3000, 2, .id⟩,
    ⟨toolSpan "PostToolUse" "a" "call-1" 4000, 3, .id⟩]

/-- A bound on the open spans after every prefix is a bound after the prefixes
no longer than the list. -/
theorem forall_take_of_le {es : List (Event PairKey Span)} {p : List (Event PairKey Span) → Prop}
    (h : ∀ n ≤ es.length, p (es.take n)) (n : ℕ) : p (es.take n) := by
  rcases Nat.le_total n es.length with hle | hle
  · exact h n hle
  · rw [List.take_of_length_le hle, ← List.take_length (l := es)]
    exact h _ (Nat.le_refl _)

theorem SpanAssembler.run_keptApart_nestedCalls :
    KeptApart 4 60 (some "a") nestedCalls
      [⟨toolSpan "PreToolUse" "a" "call-1" 1000, 0, .id⟩,
        ⟨toolSpan "PostToolUse" "a" "call-1" 4000, 3, .id⟩] :=
  SpanAssembler.run_keptApart 4 60 nestedCalls _
    (show Unrelated (some "a") (some "b") nestedCalls from ⟨by decide, by decide, by decide⟩)
    (by decide)
    (forall_take_of_le (p := fun es => ((SpanAssembler.new 4 60).run es).2.open.entries.length < 4)
      (by decide))
    (by
      rw [show (nestedCalls.filter fun e => conversation e.item = some "a") =
        [⟨toolSpan "PreToolUse" "a" "call-1" 1000, 0, .id⟩,
          ⟨toolSpan "PostToolUse" "a" "call-1" 4000, 3, .id⟩] from rfl]
      exact .cons ⟨rfl, rfl⟩ (.cons ⟨rfl, rfl⟩ .nil))

/-- A call in one conversation and the result of another with the same id. -/
def sharedCallId : List (Event PairKey Span) :=
  [⟨toolSpan "PreToolUse" "a" "call-1" 1000, 0, .id⟩,
    ⟨toolSpan "PostToolUse" "b" "call-1" 5000, 5, .id⟩]

/-- The two conversations differ and the table never fills, but the assembler
joins the call of one with the result of the other. -/
theorem SpanAssembler.run_sharedCallId :
    (∀ e ∈ sharedCallId, conversation e.item = some "a" ∨ conversation e.item = some "b") ∧
    (∀ n, ((SpanAssembler.new 4 60).run (sharedCallId.take n)).2.open.entries.length < 4) ∧
    ¬ KeptApart 4 60 (some "a") sharedCallId
      [⟨toolSpan "PreToolUse" "a" "call-1" 1000, 0, .id⟩] := by
  refine ⟨by decide, forall_take_of_le
    (p := fun es => ((SpanAssembler.new 4 60).run es).2.open.entries.length < 4) (by decide), ?_⟩
  rintro ⟨⟨early, hearly, hperm⟩, _⟩
  have hnil : early = [] := by
    refine List.eq_nil_iff_forall_not_mem.mpr fun e he => ?_
    have h60 : 60 ≤ 5 - e.2.opened := (hearly e he).2
    omega
  have hlen := hperm.length_eq
  rw [hnil] at hlen
  exact absurd hlen (by decide)

end AgentOtelBridge
