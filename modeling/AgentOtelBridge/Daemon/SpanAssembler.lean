import AgentOtelBridge.Core.Model
import AgentOtelBridge.Core.Proto
import AgentOtelBridge.Core.Semconv
import AgentOtelBridge.Lib.PairBufferTrace

/-!
# The span assembler

`SpanAssembler.observe` pairs Pre hook spans with their Post or Stop.  The model
follows the source: the hash map is a finite map whose passes take the iteration
order they meet, and the output vector is threaded through the helpers.

`observe_eq` says that the assembler is the pairing buffer at its own rules, so
the runs of one are the runs of the other (`run_eq`) and the ledger of the
buffer is the ledger of the assembler.  What the buffer does not know is what an
emitted span carries; the second half of the module says it.
-/

namespace AgentOtelBridge

open Semconv FiniteMap PairBuffer

/-! ## The assembler -/

def openSpanCapacity : Nat := 1024
/-- `OPEN_SPAN_TTL`, sixty seconds. -/
def openSpanTtl : Nat := 60 * 1000000000

def outcomeKeys : List String :=
  [genAiUsageInputTokens, genAiUsageOutputTokens, genAiUsageCacheReadTokens,
    genAiResponseFinishReasons, genAiResponseModel, agentTerminationReason, agyTerminationReason,
    agentSuccess, agentDecision, agentErrorCategory, errorType, agentFullyIdle]

/-- Tool-result fields copied from Post only when Pre did not already set them. -/
def toolResultIfAbsent : List String :=
  [genAiToolName, capabilityResponseBytes, capabilityResponseTokens,
    capabilityConsecutiveRetries, capabilityIsWaste, capabilityKind, capabilityNamespace,
    capabilityName, capabilitySchemaTokens, agentToolTokensSaved, agentToolCompressionRatio]

inductive PairKey where
  | toolCall (id : String)
  | toolFallback (conversation : String) (step : Option Int) (tool : String)
  | invoke (conversation : String)
deriving DecidableEq, Repr

structure SpanAssembler where
  «open» : Table PairKey Span
  capacity : Nat
  ttl : Nat

def SpanAssembler.new (capacity ttl : Nat) : SpanAssembler := ⟨∅, max capacity 1, ttl⟩

instance : Inhabited SpanAssembler := ⟨.new openSpanCapacity openSpanTtl⟩

def Span.findAttr (span : Span) (key : String) : Option KeyValue := findKey key span.attributes

def Span.attrStr (span : Span) (key : String) : Option String :=
  (span.findAttr key).bind KeyValue.str?

def Span.attrInt (span : Span) (key : String) : Option Int :=
  (span.findAttr key).bind KeyValue.int?

def upsertAttr (kv : KeyValue) : List KeyValue → List KeyValue
  | [] => [kv]
  | attr :: attrs => if attr.key = kv.key then kv :: attrs else attr :: upsertAttr kv attrs

def Span.upsert (span : Span) (kv : KeyValue) : Span :=
  { span with attributes := upsertAttr kv span.attributes }

def Span.setPaired (span : Span) (paired : Bool) : Span :=
  span.upsert (kvBool agentSpanPaired paired)

def overlayOutcome (pre post : Span) : Span :=
  let pre := outcomeKeys.foldl (fun pre key =>
    match post.findAttr key with
    | some kv => pre.upsert kv
    | none => pre) pre
  toolResultIfAbsent.foldl (fun pre key =>
    if (pre.findAttr key).isSome then pre
    else
      match post.findAttr key with
      | some kv => { pre with attributes := pre.attributes ++ [kv] }
      | none => pre) pre

def emitUnpaired (span : Span) : Span :=
  { span with endTimeUnixNano := span.startTimeUnixNano }.setPaired false

def pair (pre post : Span) : Span :=
  let postTs := post.endTimeUnixNano
  let pre := { pre with
    endTimeUnixNano := if pre.startTimeUnixNano ≤ postTs then postTs else pre.startTimeUnixNano }
  let pre := overlayOutcome pre post
  { pre with status := post.status }.setPaired true

/-- The id `tool_key` prefers: a text that is not empty. -/
def toolCallId (span : Span) : Option String :=
  (span.attrStr genAiToolCallId).filter fun id => !id.isEmpty

def toolKey (span : Span) : PairKey :=
  match toolCallId span with
  | some id => .toolCall id
  | none =>
      .toolFallback ((span.attrStr genAiConversationId).getD "") (span.attrInt agentStepIndex)
        ((span.attrStr genAiToolName).getD "")

def invokeKey (span : Span) : PairKey := .invoke ((span.attrStr genAiConversationId).getD "")

def hookEvent (span : Span) : HookEvent :=
  ((span.attrStr agentHookEvent).map HookEvent.fromStrName).getD .unknown

def classify (span : Span) : Action PairKey :=
  match hookEvent span with
  | .preToolUse => .open (toolKey span)
  | .postToolUse => .close (toolKey span)
  | .preInvocation => .open (invokeKey span)
  | .postInvocation => .close (invokeKey span)
  | .stop => .stop (invokeKey span)
  | .unknown => .immediate

/-- `self.open.remove(&key)`, with an open span emitted unpaired. -/
def SpanAssembler.emitOpen (self : SpanAssembler) (key : PairKey) (out : List Span) :
    List Span × SpanAssembler :=
  match self.open.lookup key with
  | some previous => (out ++ [emitUnpaired previous.item], { self with «open» := self.open.erase key })
  | none => (out, self)

def SpanAssembler.flushExpired (self : SpanAssembler) (ord : IterOrder PairKey) (now : Nat)
    (out : List Span) : List Span × SpanAssembler :=
  if self.open.entries.all fun e => now - e.2.opened < self.ttl then (out, self)
  else
    let expired := ((ord.iter self.open).filter fun e => self.ttl ≤ now - e.2.opened).map (·.1)
    expired.foldl (fun s key => s.2.emitOpen key s.1) (out, self)

def SpanAssembler.evictIfFull (self : SpanAssembler) (ord : IterOrder PairKey) (out : List Span) :
    List Span × SpanAssembler :=
  if self.open.entries.length < self.capacity then (out, self)
  else
    let oldest := ((ord.iter self.open).argmin fun e => e.2.opened).map (·.1)
    match oldest with
    | some key => self.emitOpen key out
    | none => (out, self)

/-- `SpanAssembler::observe`. -/
def SpanAssembler.observe (self : SpanAssembler) (ord : IterOrder PairKey) (span : Span)
    (now : Nat) : List Span × SpanAssembler :=
  let (out, self) := self.flushExpired ord now []
  match classify span with
  | .immediate => (out ++ [emitUnpaired span], self)
  | .open key =>
      let (out, self) := self.emitOpen key out
      let (out, self) := self.evictIfFull ord out
      (out, { self with «open» := self.open.insert key ⟨span, now⟩ })
  | .close key =>
      match self.open.lookup key with
      | some previous =>
          (out ++ [pair previous.item span], { self with «open» := self.open.erase key })
      | none => (out ++ [emitUnpaired span], self)
  | .stop key =>
      match self.open.lookup key with
      | some previous =>
          (out ++ [pair previous.item span], { self with «open» := self.open.erase key })
      | none => (out, self)

/-- The assembler over a sequence of spans, with everything it emits. -/
def SpanAssembler.run : SpanAssembler → List (Event PairKey Span) → List Span × SpanAssembler
  | self, [] => ([], self)
  | self, e :: es =>
      let (out, self) := self.observe e.ord e.item e.now
      let (more, self) := self.run es
      (out ++ more, self)

theorem SpanAssembler.run_concat (e : Event PairKey Span) :
    ∀ (es : List (Event PairKey Span)) (self : SpanAssembler),
      self.run (es ++ [e]) =
        ((self.run es).1 ++ ((self.run es).2.observe e.ord e.item e.now).1,
          ((self.run es).2.observe e.ord e.item e.now).2)
  | [], self => by simp [run]
  | e' :: es, self => by
      simp only [List.cons_append, run, run_concat e es, List.append_assoc]

/-- A hook span of a conversation with a tool call id. -/
def toolSpan (event conversation id : String) (nanos : Nat) : Span where
  traceId := []
  spanId := []
  parentSpanId := []
  flags := 1
  name := "execute_tool"
  kind := 1
  startTimeUnixNano := nanos
  endTimeUnixNano := nanos
  attributes := [kvString agentHookEvent event, kvString genAiConversationId conversation,
    kvString genAiToolCallId id]
  status := none
  rest := []

/-! ## The assembler is a pairing buffer -/

/-- The rules of the buffer the assembler is. -/
def rules : Rules PairKey Span Span where
  action := classify
  single _ := emitUnpaired
  join := pair
  orphan _ := []

def SpanAssembler.config (self : SpanAssembler) : Config := ⟨self.capacity, self.ttl⟩

/-- The assembler with another table. -/
def SpanAssembler.withOpen (self : SpanAssembler) (t : Table PairKey Span) : SpanAssembler :=
  { self with «open» := t }

theorem SpanAssembler.emitOpen_eq (self : SpanAssembler) (key : PairKey) (out : List Span) :
    self.emitOpen key out =
      (out ++ (displace rules key self.open).1, self.withOpen (displace rules key self.open).2) := by
  unfold emitOpen displace
  cases self.open.lookup key with
  | none => exact Prod.ext (List.append_nil out).symm rfl
  | some previous => rfl

/-- Emitting the open spans of distinct keys that are all open. -/
theorem SpanAssembler.foldl_emitOpen (es : List (Sigma fun _ : PairKey => Entry Span)) :
    ∀ (self : SpanAssembler) (out : List Span), (es.map (·.1)).Nodup →
      (∀ e ∈ es, e ∈ self.open.entries) →
      (es.map (·.1)).foldl (fun s key => s.2.emitOpen key s.1) (out, self) =
        (out ++ es.map fun e => emitUnpaired e.2.item,
          self.withOpen ((es.map (·.1)).foldl (fun t k => t.erase k) self.open)) := by
  induction es with
  | nil => exact fun self out _ _ => Prod.ext (List.append_nil out).symm rfl
  | cons e es ih =>
      intro self out hnd hmem
      obtain ⟨hne, hnd⟩ := List.nodup_cons.mp hnd
      have hl : self.open.lookup e.1 = some e.2 := mem_entries_iff.mp (hmem e (.head _))
      have hstep : self.emitOpen e.1 out =
          (out ++ [emitUnpaired e.2.item], self.withOpen (self.open.erase e.1)) := by
        unfold emitOpen
        rw [hl]
        rfl
      have hmem' : ∀ e' ∈ es, e' ∈ (self.withOpen (self.open.erase e.1)).open.entries := by
        intro e' he'
        show e' ∈ (self.open.erase e.1).entries
        rw [erase_entries]
        refine List.mem_filter.mpr ⟨hmem e' (.tail _ he'), ?_⟩
        have : e'.1 ≠ e.1 := fun h => hne (List.mem_map.mpr ⟨e', he', h⟩)
        simpa using this
      simp only [List.map_cons, List.foldl_cons, hstep]
      rw [ih _ _ hnd hmem', List.append_assoc]
      rfl

theorem SpanAssembler.flushExpired_eq (self : SpanAssembler) (ord : IterOrder PairKey) (now : Nat)
    (out : List Span) :
    self.flushExpired ord now out =
      (out ++ (flush rules ord self.ttl now self.open).1,
        self.withOpen (flush rules ord self.ttl now self.open).2) := by
  have hperm := ord.iter_perm self.open
  unfold flushExpired
  split
  · rename_i hall
    have hfresh : ∀ e ∈ self.open.entries, e.2.stale self.ttl now = false := by
      intro e he
      have := List.all_eq_true.mp hall e he
      simpa [Entry.stale] using this
    have hnone : (ord.iter self.open).filter (fun e => e.2.stale self.ttl now) = [] :=
      List.filter_eq_nil_iff.mpr fun e he => by simp [hfresh e (hperm.mem_iff.mp he)]
    refine Prod.ext ?_ ?_
    · simp [flush, hnone]
    · have : fresh self.ttl now self.open = self.open :=
        AList.ext (List.filter_eq_self.mpr fun e he => by simp [hfresh e he])
      simp [flush, this, withOpen]
  · have hkeys : (((ord.iter self.open).filter fun e => e.2.stale self.ttl now).map (·.1)).Nodup := by
      have hnd : ((ord.iter self.open).map (·.1)).Nodup :=
        (hperm.map Sigma.fst).nodup_iff.mpr self.open.nodupKeys
      exact hnd.sublist (List.filter_sublist.map _)
    rw [show (fun e : Sigma fun _ : PairKey => Entry Span => decide (self.ttl ≤ now - e.2.opened)) =
      fun e => e.2.stale self.ttl now from rfl]
    rw [foldl_emitOpen _ self out hkeys fun e he => hperm.mem_iff.mp (List.mem_filter.mp he).1]
    refine Prod.ext rfl ?_
    show self.withOpen _ = self.withOpen _
    congr 1
    apply AList.ext
    rw [foldl_erase_entries, flush, fresh_entries]
    refine List.filter_congr fun e he => ?_
    have : e.1 ∈ ((ord.iter self.open).filter fun e => e.2.stale self.ttl now).map (·.1) ↔
        e.2.stale self.ttl now = true := by
      constructor
      · intro hk
        obtain ⟨e', he', hfst⟩ := List.mem_map.mp hk
        obtain ⟨hmem, hstale⟩ := List.mem_filter.mp he'
        have heq : e' = e := by
          have h1 := mem_entries_iff.mp (show (⟨e'.1, e'.2⟩ : Sigma fun _ : PairKey => Entry Span) ∈
            self.open.entries from hperm.mem_iff.mp hmem)
          have h2 := mem_entries_iff.mp (show (⟨e.1, e.2⟩ : Sigma fun _ : PairKey => Entry Span) ∈
            self.open.entries from he)
          rw [hfst, h2] at h1
          exact Sigma.ext hfst (heq_of_eq (Option.some.inj h1).symm)
        exact heq ▸ hstale
      · exact fun hs => List.mem_map_of_mem (List.mem_filter.mpr ⟨hperm.mem_iff.mpr he, hs⟩)
    cases hs : e.2.stale self.ttl now with
    | true => exact decide_eq_false (not_not_intro (this.mpr hs))
    | false => exact decide_eq_true fun hk => Bool.false_ne_true (hs.symm.trans (this.mp hk))

theorem SpanAssembler.evictIfFull_eq (self : SpanAssembler) (ord : IterOrder PairKey)
    (out : List Span) :
    self.evictIfFull ord out =
      (out ++ (evict rules ord self.capacity self.open).1,
        self.withOpen (evict rules ord self.capacity self.open).2) := by
  unfold evictIfFull evict
  split
  · exact Prod.ext (List.append_nil out).symm rfl
  · cases hmin : (ord.iter self.open).argmin fun e => e.2.opened with
    | none => exact Prod.ext (List.append_nil out).symm rfl
    | some m =>
        have hl : self.open.lookup m.1 = some m.2 :=
          mem_entries_iff.mp ((ord.iter_perm self.open).mem_iff.mp (List.argmin_mem hmin))
        simp only [Option.map_some, emitOpen, hl]
        rfl

/-- **The assembler is the pairing buffer** at its own rules and bounds. -/
theorem SpanAssembler.observe_eq (self : SpanAssembler) (ord : IterOrder PairKey) (span : Span)
    (now : Nat) :
    self.observe ord span now =
      ((PairBuffer.observe rules self.config ord self.open span now).1,
        self.withOpen (PairBuffer.observe rules self.config ord self.open span now).2) := by
  unfold observe PairBuffer.observe act
  rw [flushExpired_eq]
  simp only [List.nil_append, config, rules]
  generalize flush _ ord self.ttl now self.open = mid
  obtain ⟨out, t⟩ := mid
  cases classify span with
  | immediate => rfl
  | «open» key =>
      simp only [emitOpen_eq, evictIfFull_eq, List.append_assoc]
      rfl
  | close key =>
      simp only [withOpen]
      cases t.lookup key <;> rfl
  | stop key =>
      simp only [withOpen]
      cases t.lookup key with
      | none => exact Prod.ext (List.append_nil out).symm rfl
      | some previous => rfl

theorem SpanAssembler.run_eq : ∀ (es : List (Event PairKey Span)) (self : SpanAssembler),
    self.run es =
      ((PairBuffer.run rules self.config self.open es).1,
        self.withOpen (PairBuffer.run rules self.config self.open es).2)
  | [], _ => rfl
  | e :: es, self => by
      rw [run, observe_eq, run_cons]
      simp only
      rw [run_eq es]
      rfl

end AgentOtelBridge
