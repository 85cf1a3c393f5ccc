import AgentOtelBridge.Core.Proto
import AgentOtelBridge.Daemon.Exporter
import Mathlib.Algebra.Ring.Int.Defs

/-!
# The span batcher

`SpanBatcher` collects spans and hands them out as requests.  The span and the
resource are parameters, with their encoded lengths: the batcher reads nothing
else of them.  The lengths of the bridge's own messages are instances.  A batch
carries the number of spans its request has.
-/

namespace AgentOtelBridge

open Exporter (maxRequestBytes)

/-- The length of a message on the wire. -/
class Message (α : Type*) where
  encodedLen : α → Nat

export Message (encodedLen)

/-- The number of bytes of a varint, seven bits to each. -/
def varintLen (n : Nat) : Nat := Nat.log2 n / 7 + 1

/-- A length-delimited field with a one-byte tag. -/
def delimitedLen (len : Nat) : Nat := 1 + varintLen len + len

/-- A string field, which is left out when it is empty. -/
def stringLen (value : String) : Nat :=
  if value = "" then 0 else delimitedLen value.utf8ByteSize

def bytesLen (value : List UInt8) : Nat :=
  if value = [] then 0 else delimitedLen value.length

/-- The varint of a signed integer, in 64 bits of two's complement. -/
def signedVarintLen (n : Int) : Nat := varintLen (n % 2 ^ 64).toNat

/-- An enumeration or an integer field, which is left out when it is zero. -/
def signedLen (n : Int) : Nat := if n = 0 then 0 else 1 + signedVarintLen n

/-- A fixed field of eight bytes. -/
def fixed64Len (n : Nat) : Nat := if n = 0 then 0 else 9

/-! ## Messages -/

instance : Message Value where
  encodedLen
    | .stringValue value => delimitedLen value.utf8ByteSize
    | .boolValue _ => 2
    | .intValue value => 1 + signedVarintLen value
    | .doubleValue _ => 9
    | .arrayValue values =>
      delimitedLen (values.map fun value => delimitedLen (delimitedLen value.utf8ByteSize)).sum
    | .other encoded => encoded.length

instance : Message AnyValue where
  encodedLen any := any.value.elim 0 encodedLen

instance : Message KeyValue where
  encodedLen kv :=
    stringLen kv.key + kv.value.elim 0 fun value => delimitedLen (encodedLen value)

instance : Message Status where
  encodedLen status := stringLen status.message + signedLen status.code

instance : Message Span where
  encodedLen span :=
    bytesLen span.traceId + bytesLen span.spanId +
      bytesLen span.parentSpanId + (if span.flags = 0 then 0 else 6) +
      stringLen span.name + signedLen span.kind +
      fixed64Len span.startTimeUnixNano + fixed64Len span.endTimeUnixNano +
      (span.attributes.map fun attr => delimitedLen (encodedLen attr)).sum +
      (span.status.elim 0 fun status => delimitedLen (encodedLen status)) + span.rest.length

structure Resource where
  attributes : List KeyValue
deriving DecidableEq, Repr

instance : Message Resource where
  encodedLen resource :=
    (resource.attributes.map fun attr => delimitedLen (encodedLen attr)).sum

/-! ## Requests -/

structure InstrumentationScope where
  name : String
  version : String
deriving DecidableEq, Repr

instance : Message InstrumentationScope where
  encodedLen scope := stringLen scope.name + stringLen scope.version

variable {ρ σ : Type*}

structure ScopeSpans (σ : Type*) where
  scope : Option InstrumentationScope
  spans : List σ
  schemaUrl : String

instance [Message σ] : Message (ScopeSpans σ) where
  encodedLen s :=
    (s.scope.elim 0 fun scope => delimitedLen (encodedLen scope)) +
      (s.spans.map fun span => delimitedLen (encodedLen span)).sum + stringLen s.schemaUrl

structure ResourceSpans (ρ σ : Type*) where
  resource : Option ρ
  scopeSpans : List (ScopeSpans σ)
  schemaUrl : String

instance [Message ρ] [Message σ] : Message (ResourceSpans ρ σ) where
  encodedLen r :=
    (r.resource.elim 0 fun resource => delimitedLen (encodedLen resource)) +
      (r.scopeSpans.map fun s => delimitedLen (encodedLen s)).sum + stringLen r.schemaUrl

structure ExportTraceServiceRequest (ρ σ : Type*) where
  resourceSpans : List (ResourceSpans ρ σ)

instance [Message ρ] [Message σ] : Message (ExportTraceServiceRequest ρ σ) where
  encodedLen r := (r.resourceSpans.map fun s => delimitedLen (encodedLen s)).sum

/-- The spans of a request, as the exporter counts them. -/
def ExportTraceServiceRequest.spans (request : ExportTraceServiceRequest ρ σ) : List σ :=
  request.resourceSpans.flatMap fun r => r.scopeSpans.flatMap fun s => s.spans

/-- `instrumentation_scope`, at the version of the package. -/
def instrumentationScope : InstrumentationScope := ⟨"agent-otel-bridge", "0.9.0"⟩

def buildTraceRequestWithSchema (resource : ρ) (spans : List σ) (schemaUrl : String) :
    ExportTraceServiceRequest ρ σ :=
  ⟨[⟨some resource, [⟨some instrumentationScope, spans, schemaUrl⟩], schemaUrl⟩]⟩

@[simp] theorem buildTraceRequestWithSchema_spans (resource : ρ) (spans : List σ)
    (schemaUrl : String) : (buildTraceRequestWithSchema resource spans schemaUrl).spans = spans := by
  simp [buildTraceRequestWithSchema, ExportTraceServiceRequest.spans]

/-! ## Field sizes -/

/-- The loop of `field_bytes`: seven bits of the value in each round. -/
def varintLoop : Nat → Nat → Nat → Nat
  | 0, _, varint => varint
  | fuel + 1, value, varint =>
      if 128 ≤ value then varintLoop fuel (value >>> 7) (varint + 1) else varint

/-- The loop counts the bytes of the varint; the value itself is fuel enough. -/
theorem varintLoop_eq (fuel : Nat) : ∀ (value varint : Nat), value ≤ fuel →
    varintLoop fuel value varint = Nat.log2 value / 7 + varint := by
  induction fuel with
  | zero =>
      intro value varint hle
      obtain rfl : value = 0 := Nat.le_zero.mp hle
      simp [varintLoop]
  | succ fuel ih =>
      intro value varint hle
      rw [varintLoop]
      split
      · rename_i hbig
        have hshift : value >>> 7 = value / 2 ^ 7 := Nat.shiftRight_eq_div_pow value 7
        have hlog : Nat.log2 value = Nat.log2 (value / 2 ^ 7) + 7 := by
          obtain ⟨hle, hlt⟩ := (Nat.log2_eq_iff (n := value / 2 ^ 7) (by omega)).mp rfl
          refine (Nat.log2_eq_iff (by omega)).mpr ⟨?_, ?_⟩
          · rw [Nat.pow_add]
            exact (Nat.le_div_iff_mul_le (by decide)).mp hle
          · rw [Nat.add_right_comm, Nat.pow_add]
            exact (Nat.div_lt_iff_lt_mul (by decide)).mp hlt
        rw [ih _ _ (by rw [hshift]; omega), hshift, hlog]
        omega
      · rename_i hsmall
        have hlog : Nat.log2 value < 7 := by
          rcases Nat.eq_zero_or_pos value with rfl | hpos
          · decide
          · exact (Nat.log2_lt (Nat.pos_iff_ne_zero.mp hpos)).mpr (by omega)
        omega

def fieldBytes (len : Nat) : Nat := 1 + varintLoop len len 1 + len

def stringFieldBytes (value : String) : Nat :=
  if value = "" then 0 else fieldBytes value.utf8ByteSize

/-- The batcher counts a field as it is encoded. -/
theorem fieldBytes_eq (len : Nat) : fieldBytes len = delimitedLen len := by
  rw [fieldBytes, varintLoop_eq len len 1 (Nat.le_refl len), delimitedLen, varintLen]

theorem stringFieldBytes_eq (value : String) : stringFieldBytes value = stringLen value := by
  simp [stringFieldBytes, stringLen, fieldBytes_eq]

/-! ## Batches -/

structure ExportBatch (ρ σ : Type*) where
  request : ExportTraceServiceRequest ρ σ
  count : Nat
  encodedBytes : Nat
  oldest : Nat
  /-- The count is the number of spans in the request. -/
  counted : count = request.spans.length

/-- The batcher.  The age of the oldest span is set exactly when there is one. -/
structure SpanBatcher (ρ σ : Type*) where
  resource : ρ
  schemaUrl : String
  batchSize : Nat
  spans : List σ
  wireBytes : Nat
  resourceBytes : Nat
  scopeBytes : Nat
  schemaFieldBytes : Nat
  oldest : Option Nat
  aged : oldest.isSome = true ↔ spans ≠ []

namespace SpanBatcher

variable [Message ρ] [Message σ]

def withSchema (resource : ρ) (batchSize : Nat) (schemaUrl : String) : SpanBatcher ρ σ where
  resource := resource
  schemaUrl := schemaUrl
  batchSize := min (max batchSize 1) 4096
  spans := []
  wireBytes := 0
  resourceBytes := fieldBytes (encodedLen resource)
  scopeBytes := fieldBytes (encodedLen instrumentationScope)
  schemaFieldBytes := stringFieldBytes schemaUrl
  oldest := none
  aged := by simp

def requestBytes (self : SpanBatcher ρ σ) (spansWireBytes : Nat) : Nat :=
  let scopeInner := self.scopeBytes + spansWireBytes + self.schemaFieldBytes
  let resourceInner := self.resourceBytes + fieldBytes scopeInner + self.schemaFieldBytes
  fieldBytes resourceInner

def take (self : SpanBatcher ρ σ) : Option (ExportBatch ρ σ) × SpanBatcher ρ σ :=
  if h : self.spans = [] then (none, self)
  else
    let request := buildTraceRequestWithSchema self.resource self.spans self.schemaUrl
    (some {
      request := request
      count := self.spans.length
      encodedBytes := encodedLen request
      oldest := self.oldest.get (self.aged.mpr h)
      counted := by simp [request] },
    { self with
      spans := []
      wireBytes := 0
      oldest := none
      aged := by simp })

/-- The span is buffered: `oldest.get_or_insert`, `wire_bytes` and `spans.push`. -/
def append (self : SpanBatcher ρ σ) (span : σ) (now : Nat) : SpanBatcher ρ σ :=
  { self with
    spans := self.spans ++ [span]
    wireBytes := self.wireBytes + fieldBytes (encodedLen span)
    oldest := some (self.oldest.getD now)
    aged := by simp }

/-- `try_push`: a returned batch precedes the newly buffered span. -/
def tryPush (self : SpanBatcher ρ σ) (span : σ) (now : Nat) :
    Except String (Option (ExportBatch ρ σ)) × SpanBatcher ρ σ :=
  let bytes := fieldBytes (encodedLen span)
  if self.requestBytes bytes > maxRequestBytes then (.error "span_size", self)
  else
    let (ready, self) :=
      if self.spans ≠ [] ∧ self.requestBytes (self.wireBytes + bytes) > maxRequestBytes then
        self.take
      else (none, self)
    (.ok ready, self.append span now)

def isFull (self : SpanBatcher ρ σ) : Bool := self.batchSize ≤ self.spans.length

def takeDue (self : SpanBatcher ρ σ) (now maxAge : Nat) :
    Option (ExportBatch ρ σ) × SpanBatcher ρ σ :=
  if self.oldest.any fun start => maxAge ≤ now - start then self.take else (none, self)

/-! ## Sizes -/

/-- The batcher predicts the length of the request it would build, and that
request is within the limit. -/
structure Good (b : SpanBatcher ρ σ) : Prop where
  resource : b.resourceBytes = fieldBytes (encodedLen b.resource)
  scope : b.scopeBytes = fieldBytes (encodedLen instrumentationScope)
  schema : b.schemaFieldBytes = stringFieldBytes b.schemaUrl
  wire : b.wireBytes = (b.spans.map fun span => fieldBytes (encodedLen span)).sum
  fits : b.spans ≠ [] → b.requestBytes b.wireBytes ≤ maxRequestBytes

theorem withSchema_good (resource : ρ) (batchSize : Nat) (schemaUrl : String) :
    (withSchema resource batchSize schemaUrl : SpanBatcher ρ σ).Good :=
  ⟨rfl, rfl, rfl, rfl, fun h => absurd rfl h⟩

/-- The sizes the batcher keeps predict the length of a request of any spans. -/
theorem Good.requestBytes_spans {self : SpanBatcher ρ σ} (h : self.Good) (spans : List σ) :
    self.requestBytes (spans.map fun span => fieldBytes (encodedLen span)).sum =
      encodedLen (buildTraceRequestWithSchema self.resource spans self.schemaUrl) := by
  simp [requestBytes, buildTraceRequestWithSchema, Message.encodedLen, h.resource, h.scope,
    h.schema, fieldBytes_eq, stringFieldBytes_eq]

/-- The prediction is the length of the request. -/
theorem Good.requestBytes_eq {self : SpanBatcher ρ σ} (h : self.Good) :
    self.requestBytes self.wireBytes =
      encodedLen (buildTraceRequestWithSchema self.resource self.spans self.schemaUrl) := by
  rw [h.wire, h.requestBytes_spans]

/-- What `take` does: nothing to an empty batcher, and otherwise it hands out all
the spans, in a request within the limit. -/
theorem take_spec {self : SpanBatcher ρ σ} (h : self.Good) :
    self.take.2.Good ∧ self.take.2.spans = [] ∧
      match self.take.1 with
      | none => self.spans = []
      | some batch => batch.request.spans = self.spans ∧ batch.encodedBytes ≤ maxRequestBytes := by
  unfold take
  split
  · rename_i hnil
    exact ⟨h, hnil, hnil⟩
  · rename_i hne
    refine ⟨⟨h.resource, h.scope, h.schema, rfl, fun hnil => absurd rfl hnil⟩, rfl, ?_, ?_⟩
    · simp
    · show encodedLen (buildTraceRequestWithSchema self.resource self.spans self.schemaUrl) ≤ _
      rw [← h.requestBytes_eq]
      exact h.fits hne

/-- The sizes of the resource, the scope and the schema stay. -/
theorem take_requestBytes (self : SpanBatcher ρ σ) : self.take.2.requestBytes = self.requestBytes := by
  unfold take
  split <;> rfl

theorem append_good {self : SpanBatcher ρ σ} (h : self.Good) {span : σ} (now : Nat)
    (hfit : self.requestBytes (self.wireBytes + fieldBytes (encodedLen span)) ≤ maxRequestBytes) :
    (self.append span now).Good := by
  refine ⟨h.resource, h.scope, h.schema, ?_, fun _ => hfit⟩
  simp [append, h.wire]

/-- What `try_push` does: it refuses a span that fits no request, and otherwise
buffers it behind the spans that are left when a full request is handed out. -/
theorem tryPush_spec {self : SpanBatcher ρ σ} (h : self.Good) (span : σ) (now : Nat) :
    (self.tryPush span now).2.Good ∧
      match (self.tryPush span now).1 with
      | .error _ => (self.tryPush span now).2 = self
      | .ok none => (self.tryPush span now).2.spans = self.spans ++ [span]
      | .ok (some batch) =>
          batch.request.spans = self.spans ∧ batch.encodedBytes ≤ maxRequestBytes ∧
            (self.tryPush span now).2.spans = [span] := by
  unfold tryPush
  simp only
  split
  · exact ⟨h, rfl⟩
  · rename_i hsize
    have hsize : self.requestBytes (fieldBytes (encodedLen span)) ≤ maxRequestBytes :=
      Nat.le_of_not_lt hsize
    split
    · rename_i hfull
      obtain ⟨hgood, hnil, hspec⟩ := take_spec h
      have hsame := self.take_requestBytes
      have hzero : self.take.2.wireBytes = 0 := by rw [hgood.wire, hnil]; rfl
      refine ⟨append_good hgood now (by rw [hsame, hzero, Nat.zero_add]; exact hsize), ?_⟩
      cases hready : self.take.1 with
      | none =>
          rw [hready] at hspec
          exact absurd hspec hfull.1
      | some batch =>
          rw [hready] at hspec
          exact ⟨hspec.1, hspec.2, by simp [append, hnil]⟩
    · rename_i hfree
      refine ⟨append_good h now ?_, rfl⟩
      rcases Decidable.em (self.spans = []) with hnil | hne
      · have hzero : self.wireBytes = 0 := by rw [h.wire, hnil]; rfl
        rw [hzero, Nat.zero_add]
        exact hsize
      · exact Nat.le_of_not_lt fun hlt => hfree ⟨hne, hlt⟩

/-- A span that fits a request alone. -/
def fits (self : SpanBatcher ρ σ) (span : σ) : Bool :=
  self.requestBytes (fieldBytes (encodedLen span)) ≤ maxRequestBytes

omit [Message ρ] in
theorem fits_congr {b b' : SpanBatcher ρ σ} (h : b.requestBytes = b'.requestBytes) :
    b.fits = b'.fits := by
  funext span
  rw [fits, fits, h]

/-- `try_push` refuses exactly the spans that fit no request. -/
theorem tryPush_error (self : SpanBatcher ρ σ) (span : σ) (now : Nat) :
    (∃ error, (self.tryPush span now).1 = .error error) ↔ self.fits span = false := by
  unfold tryPush fits
  simp only
  split
  · rename_i hsize
    simp [Nat.not_le_of_lt hsize]
  · rename_i hsize
    simp [Nat.le_of_not_lt hsize]

theorem tryPush_requestBytes (self : SpanBatcher ρ σ) (span : σ) (now : Nat) :
    (self.tryPush span now).2.requestBytes = self.requestBytes := by
  unfold tryPush
  simp only
  split
  · rfl
  · split
    · exact self.take_requestBytes
    · rfl

theorem takeDue_cases (self : SpanBatcher ρ σ) (now maxAge : Nat) :
    self.takeDue now maxAge = self.take ∨ self.takeDue now maxAge = (none, self) := by
  unfold takeDue
  split
  · exact .inl rfl
  · exact .inr rfl

/-! ## What is handed out -/

/-- A batcher has handed out the front of its spans, or nothing. -/
structure HandsOut (b : SpanBatcher ρ σ) (r : Option (ExportBatch ρ σ) × SpanBatcher ρ σ) :
    Prop where
  good : r.2.Good
  requestBytes : r.2.requestBytes = b.requestBytes
  spans : (r.1.toList.flatMap fun batch => batch.request.spans) ++ r.2.spans = b.spans
  small : ∀ batch ∈ r.1.toList, batch.encodedBytes ≤ maxRequestBytes

section

variable {self : SpanBatcher ρ σ}

theorem Good.keeps (h : self.Good) : self.HandsOut (none, self) :=
  ⟨h, rfl, rfl, nofun⟩

theorem Good.takes (h : self.Good) : self.HandsOut self.take := by
  obtain ⟨hgood, hnil, hspec⟩ := take_spec h
  refine ⟨hgood, self.take_requestBytes, ?_, ?_⟩
  · rw [hnil, List.append_nil]
    cases hready : self.take.1 with
    | none =>
        rw [hready] at hspec
        exact hspec.symm
    | some batch =>
        rw [hready] at hspec
        simpa using hspec.1
  · intro batch hb
    rw [Option.mem_toList] at hb
    rw [hb] at hspec
    exact hspec.2

theorem Good.takesDue (h : self.Good) (now maxAge : Nat) :
    self.HandsOut (self.takeDue now maxAge) := by
  rcases self.takeDue_cases now maxAge with he | he <;> rw [he]
  · exact h.takes
  · exact h.keeps

/-- A span that is not refused is behind what is handed out and what stays. -/
theorem Good.pushes (h : self.Good) (span : σ) (now : Nat) (ready : Option (ExportBatch ρ σ))
    (hok : (self.tryPush span now).1 = .ok ready) :
    (ready.toList.flatMap fun batch => batch.request.spans) ++ (self.tryPush span now).2.spans =
        self.spans ++ [span] ∧
      ∀ batch ∈ ready.toList, batch.encodedBytes ≤ maxRequestBytes := by
  have hspec := (tryPush_spec h span now).2
  rw [hok] at hspec
  cases ready with
  | none => exact ⟨by simpa using hspec, nofun⟩
  | some batch =>
      obtain ⟨hspans, hsmall, hrest⟩ := hspec
      exact ⟨by simp [hspans, hrest], by simpa using hsmall⟩

end

end SpanBatcher

end AgentOtelBridge
