import AgentOtelBridge.Daemon.Transform

/-!
# The identity of a span

A span is known by its trace id and its span id.  The span id is a hash of what the
event says and of a salt, which a run of the daemon counts from one, so in one run
no two events have one identity until the salt wraps (`history_identity`).

The salt is not kept from one run to the next.  The same event at the same position
of two runs has the same identity (`history_collision`).
-/

namespace AgentOtelBridge

open Text (asBytes)

/-- Two spans that no backend can tell apart. -/
def SameIdentity (span span' : Span) : Prop :=
  span.traceId = span'.traceId ∧ span.spanId = span'.spanId

instance (span span' : Span) : Decidable (SameIdentity span span') := by
  unfold SameIdentity
  infer_instance

/-- What the span id of an event is a hash of. -/
def spanText (entry : UInt32 × Prepared) : List UInt8 :=
  spanIdText entry.2.input.conversationId entry.2.input.stepIdx entry.2.event
    entry.2.input.resolvedToolName entry.1

theorem Transformer.span_spanId (T : Transformer) (entry : UInt32 × Prepared) :
    (T.span entry.1 entry.2).spanId = spanIdOf (T.sha256 (spanText entry)) := rfl

/-! ## Histories -/

/-- A run of the daemon: how it transforms, and the frames that reach it. -/
structure DaemonRun where
  transformer : Transformer
  arrivals : List Arrival

/-- The events a run transforms, in their order, with their salts. -/
def DaemonRun.transformed (run : DaemonRun) : List (UInt32 × Prepared) :=
  run.transformer.transformRun 0 run.arrivals

/-- The texts that are hashed for the span ids of a history. -/
def hashedTexts (history : List DaemonRun) : List (List UInt8) :=
  history.flatMap fun run => run.transformed.map spanText

theorem mem_hashedTexts {history : List DaemonRun} {run : DaemonRun} (member : run ∈ history)
    {k : ℕ} {entry : UInt32 × Prepared} (transformed : run.transformed[k]? = some entry) :
    spanText entry ∈ hashedTexts history :=
  List.mem_flatMap.mpr ⟨run, member, List.mem_map_of_mem (List.mem_of_getElem? transformed)⟩

/-- The truncated hash tells the texts of a history apart. -/
def Injective (sha256 : List UInt8 → List UInt8) (history : List DaemonRun) : Prop :=
  ∀ text ∈ hashedTexts history, ∀ text' ∈ hashedTexts history,
    spanIdOf (sha256 text) = spanIdOf (sha256 text') → text = text'

theorem salt_early {run : DaemonRun} {k : ℕ} {entry : UInt32 × Prepared}
    (transformed : run.transformed[k]? = some entry) (early : k + 1 < 2 ^ 32) :
    entry.1.toNat = k + 1 := by
  rw [Transformer.transformRun_salt transformed, UInt32.zero_add, UInt32.toNat_ofNat_of_lt' early]

/-- **An identity is used at one position only.**  In a history of runs, two events
that are not past the wrap of the salt have the same identity only when they have
the same position in their runs and hash the same text; so they are one event, or
are in two runs. -/
theorem history_identity {sha256 : List UInt8 → List UInt8} {history : List DaemonRun}
    (hash : ∀ run ∈ history, run.transformer.sha256 = sha256) (injective : Injective sha256 history)
    {a b i j : ℕ} {run run' : DaemonRun} (at_ : history[a]? = some run)
    (at_' : history[b]? = some run') {entry entry' : UInt32 × Prepared}
    (transformed : run.transformed[i]? = some entry)
    (transformed' : run'.transformed[j]? = some entry')
    (early : i + 1 < 2 ^ 32) (early' : j + 1 < 2 ^ 32)
    (same : SameIdentity (run.transformer.span entry.1 entry.2)
      (run'.transformer.span entry'.1 entry'.2)) :
    i = j ∧ spanText entry = spanText entry' := by
  have member := List.mem_of_getElem? at_
  have member' := List.mem_of_getElem? at_'
  have ids := same.2
  rw [Transformer.span_spanId, Transformer.span_spanId, hash run member, hash run' member'] at ids
  have texts := injective _ (mem_hashedTexts member transformed) _
    (mem_hashedTexts member' transformed') ids
  have salt := salt_early transformed early
  have salt' := salt_early transformed' early'
  have positive : 0 < entry.1 := by
    rw [UInt32.lt_iff_toNat_lt, salt]
    exact Nat.succ_pos i
  have positive' : 0 < entry'.1 := by
    rw [UInt32.lt_iff_toNat_lt, salt']
    exact Nat.succ_pos j
  have salts := spanIdText_salt positive positive' texts
  refine ⟨?_, texts⟩
  rw [salts, salt'] at salt
  omega

/-! ## Two runs of one conversation -/

def conversationPayload : List UInt8 := asBytes "\x7b\"conversation_id\":\"c\"\x7d"

/-- What transforms the payload of the conversation. -/
def conversationTransformer : Transformer :=
  sampleTransformer conversationPayload { conversationId := some "c" } .absolute

/-- An invocation and its stop, and after a restart the invocation again. -/
def sampleHistory : List DaemonRun :=
  [⟨conversationTransformer, [sampleArrival conversationPayload 1, sampleArrival conversationPayload 5]⟩, ⟨conversationTransformer, [sampleArrival conversationPayload 1]⟩]

theorem sampleArrival_prepared : ∃ p, conversationTransformer.prepare (sampleArrival conversationPayload 1) = .ok p := by
  have accepted : (conversationTransformer.prepare (sampleArrival conversationPayload 1)).isOk = true := by decide +kernel
  cases prepared : conversationTransformer.prepare (sampleArrival conversationPayload 1) with
  | ok p => exact ⟨p, rfl⟩
  | error error => rw [prepared] at accepted; cases accepted

theorem sampleHistory_injective : Injective sampleHash sampleHistory := by
  unfold Injective
  decide +kernel

theorem sampleHistory_hash : ∀ run ∈ sampleHistory, run.transformer.sha256 = sampleHash := by
  intro run member
  simp only [sampleHistory, List.mem_cons, List.not_mem_nil, or_false] at member
  rcases member with rfl | rfl <;> rfl

/-- The first event of a run has the salt one. -/
theorem transformed_head {T : Transformer} {a : Arrival} {p : Prepared} (prepared : T.prepare a = .ok p)
    (arrivals : List Arrival) : (DaemonRun.transformed ⟨T, a :: arrivals⟩)[0]? = some (1, p) := by
  unfold DaemonRun.transformed
  rw [Transformer.transformRun_cons_ok prepared]
  rfl

/-- The events of a run that is one frame over and over. -/
theorem transformed_replicate {T : Transformer} {a : Arrival} {p : Prepared}
    (prepared : T.prepare a = .ok p) {n k : ℕ} (inside : k < n) :
    (DaemonRun.transformed ⟨T, .replicate n a⟩)[k]? = some (.ofNat (k + 1), p) := by
  have all : ∀ (n k : ℕ) (salt : UInt32), k < n →
      (T.transformRun salt (.replicate n a))[k]? = some (salt + .ofNat (k + 1), p) := by
    intro n
    induction n with
    | zero => intro k salt inside; omega
    | succ n ih =>
        intro k salt inside
        rw [List.replicate_succ, Transformer.transformRun_cons_ok prepared]
        cases k with
        | zero => rfl
        | succ k => rw [List.getElem?_cons_succ, ih k (salt + 1) (by omega), Transformer.salt_add_succ]
  rw [DaemonRun.transformed, all n k 0 inside, UInt32.zero_add]

/-- An event that comes again after a restart has the identity it had, and so has an
event that comes again in one run when the salt has wrapped. -/
theorem history_collision :
    (¬ ∀ (sha256 : List UInt8 → List UInt8) (history : List DaemonRun),
      (∀ run ∈ history, run.transformer.sha256 = sha256) → Injective sha256 history →
      ∀ (a b i j : ℕ) (run run' : DaemonRun) (entry entry' : UInt32 × Prepared),
        history[a]? = some run → history[b]? = some run' →
        run.transformed[i]? = some entry → run'.transformed[j]? = some entry' →
        (a, i) ≠ (b, j) →
        ¬ SameIdentity (run.transformer.span entry.1 entry.2)
          (run'.transformer.span entry'.1 entry'.2)) ∧
    ∃ (run : DaemonRun) (i j : ℕ) (entry entry' : UInt32 × Prepared), i ≠ j ∧
      run.transformed[i]? = some entry ∧ run.transformed[j]? = some entry' ∧
      SameIdentity (run.transformer.span entry.1 entry.2)
        (run.transformer.span entry'.1 entry'.2) := by
  obtain ⟨p, prepared⟩ := sampleArrival_prepared
  constructor
  · intro claim
    exact claim sampleHash sampleHistory sampleHistory_hash sampleHistory_injective 0 1 0 0 _ _ (1, p)
      (1, p) rfl rfl (transformed_head prepared _) (transformed_head prepared _) (by simp) ⟨rfl, rfl⟩
  · refine ⟨⟨conversationTransformer, .replicate (2 ^ 32 + 1) (sampleArrival conversationPayload 1)⟩, 0, 2 ^ 32, _, _, by simp,
      transformed_replicate prepared (by simp), transformed_replicate prepared (by simp), ?_⟩
    have wraps : UInt32.ofNat (2 ^ 32 + 1) = UInt32.ofNat (0 + 1) := by decide
    rw [wraps]
    exact ⟨rfl, rfl⟩

/-- The invocation has the same text in both runs, since it has the same identity. -/
theorem history_identity_sampleHistory : ∃ entry entry' : UInt32 × Prepared,
    (DaemonRun.transformed ⟨conversationTransformer, [sampleArrival conversationPayload 1, sampleArrival conversationPayload 5]⟩)[0]? =
      some entry ∧
    (DaemonRun.transformed ⟨conversationTransformer, [sampleArrival conversationPayload 1]⟩)[0]? = some entry' ∧
    spanText entry = spanText entry' := by
  obtain ⟨p, prepared⟩ := sampleArrival_prepared
  have first := transformed_head prepared [sampleArrival conversationPayload 5]
  have second := transformed_head prepared []
  have shared := history_identity sampleHistory_hash sampleHistory_injective (a := 0) (b := 1) rfl rfl
    first second (by simp) (by simp) ⟨rfl, rfl⟩
  exact ⟨(1, p), (1, p), first, second, shared.2⟩

end AgentOtelBridge
