import AgentOtelBridge.Lib.Text

/-!
# The OTLP exporter

`OtlpExporter.export` sends one request at most three times.  What the network
does is a parameter: `ExportEnv.attempt n` holds the clock readings of attempt
`n` and what the attempt ends in.  Durations and instants are nanoseconds.  The
model returns the report together with the wire, the results of the requests
that were sent, oldest first.

The verdict of an export is a fold over its attempts.  `attemptVerdict` is the
body of the loop for one attempt and `exportFrom` the loop.  `Trusted` says when
an attempt confirms a delivery, `Ambiguous` when it leaves the delivery open.
`LoopInv` is what the loop knows of the attempts behind it, `Sound` what a
report owes to the attempts it counts, and `Honest` the same of the wire.
-/

namespace AgentOtelBridge.Exporter

def maxResponseBytes : Nat := 4 * 1024 * 1024
def maxRequestBytes : Nat := 1024 * 1024
/-- `EXPORT_DEADLINE`, six seconds. -/
def exportDeadline : Nat := 6 * 1000000000

inductive ExportOutcome where
  | accepted
  | partiallyAccepted (rejected : Nat) (warning : Bool)
  | rejected (reason : String)
  | unknown (reason : String)
deriving DecidableEq, Repr

structure ExportReport where
  outcome : ExportOutcome
  attempts : Nat
  mayDuplicate : Bool
deriving DecidableEq, Repr

inductive Signal where
  | traces
  | metrics
deriving DecidableEq, Repr

structure SignalExportConfig where
  url : String
  headers : List (String × String)
  gzip : Bool
  disabledReason : Option String
  timeout : Nat
  certificate : Option String

structure OtlpExporter where
  traces : SignalExportConfig
  metrics : SignalExportConfig
  sdkDisabled : Bool

/-! ## The network -/

/-- One `response.chunk().await` under the deadline. -/
inductive ChunkRead where
  | chunk (bytes : List UInt8)
  | transport
  | deadline
deriving DecidableEq, Repr

/-- What `timeout_at(deadline, request.send())` ends in.  A header is `none`
when it is absent or not text.  The body is the chunks the response yields. -/
inductive AttemptResult where
  | connect
  | transport
  | deadline
  | response (status : Nat) (contentType retryAfter : Option String) (body : List ChunkRead)
deriving DecidableEq, Repr

/-- One pass of the loop: the instant at its head, the result, the wall clock
`Retry-After` is read against, the jitter drawn and the instant at which the
delay is weighed against the deadline. -/
structure Attempt where
  start : Nat
  result : AttemptResult
  wall : Nat
  jitter : Nat
  settled : Nat
deriving DecidableEq, Repr

structure ExportEnv where
  now : Nat
  gzipFails : Bool
  attempt : Nat → Attempt

/-- The decoders of two other packages: the response messages, which give the
rejected count and whether a message came with it, and the date of an HTTP
header, in nanoseconds. -/
structure Codec where
  decode : Signal → List UInt8 → Option (Option (Int × Bool))
  parseHttpDate : String → Option Nat

/-! ## One attempt -/

def retryableStatus (status : Nat) : Bool :=
  status == 429 || status == 502 || status == 503 || status == 504

def retryAfterDuration (codec : Codec) (value : String) (now : Nat) : Option Nat :=
  match Text.parseUnsigned 64 (Text.trim value) with
  | some seconds => some (seconds * 1000000000)
  | none => (codec.parseHttpDate value).map fun date => date - now

def decodeResponse (codec : Codec) (signal : Signal) (bytes : List UInt8) (sent : Nat) :
    ExportOutcome :=
  match codec.decode signal bytes with
  | some none => .accepted
  | some (some (rejected, warning)) =>
      if 0 ≤ rejected ∧ rejected.toNat ≤ sent then
        .partiallyAccepted rejected.toNat warning
      else .unknown "protocol"
  | none => .unknown "protocol"

/-- The `read` block: the chunks up to the end of the body, or why they stop. -/
def readBody : List UInt8 → List ChunkRead → Except String (List UInt8)
  | data, [] => .ok data
  | _, .transport :: _ => .error "response_transport"
  | _, .deadline :: _ => .error "response_deadline"
  | data, .chunk bytes :: rest =>
      if bytes.length > maxResponseBytes - data.length then .error "response_size"
      else readBody (data ++ bytes) rest

def isProtobuf (contentType : Option String) : Bool :=
  Text.trim (Text.beforeFirst ';' (contentType.getD "")) == "application/x-protobuf"

/-- The mutable variables of the loop. -/
structure Progress where
  uncertain : Bool
  last : ExportOutcome
  attempts : Nat
deriving DecidableEq, Repr

/-- How one pass of the loop leaves the `match`: with a report, or with the
variables and the `Retry-After` it read. -/
inductive Verdict where
  | done (report : ExportReport)
  | retry (p : Progress) (retryAfter : Option Nat)
deriving DecidableEq, Repr

def isSuccess (status : Nat) : Bool := 200 ≤ status && status < 300

def statusOutcome (status : Nat) : ExportOutcome :=
  if isSuccess status then .unknown "unexpected_success_status" else .rejected "http_status"

/-- The status 200 branch: every way through it returns. -/
def successReport (codec : Codec) (signal : Signal) (count n : Nat) (uncertain : Bool)
    (contentType : Option String) (body : List ChunkRead) : ExportReport :=
  if isProtobuf contentType then
    match readBody [] body with
    | .ok data => ⟨decodeResponse codec signal data count, n, uncertain⟩
    | .error reason => ⟨.unknown reason, n, uncertain⟩
  else ⟨.unknown "content_type", n, uncertain⟩

/-- The branch of every other status. -/
def statusVerdict (codec : Codec) (n : Nat) (uncertain : Bool) (status : Nat)
    (retryAfter : Option String) (wall : Nat) : Verdict :=
  if retryableStatus status then
    .retry ⟨uncertain, statusOutcome status, n⟩
      (retryAfter.bind fun s => retryAfterDuration codec s wall)
  else if uncertain then .done ⟨.unknown "earlier_attempt_unknown", n, uncertain⟩
  else .done ⟨statusOutcome status, n, uncertain⟩

/-- The `match` on the result of attempt `n`. -/
def attemptVerdict (codec : Codec) (signal : Signal) (count n : Nat) (uncertain : Bool)
    (a : Attempt) : Verdict :=
  match a.result with
  | .response status contentType retryAfter body =>
      if status = 200 then .done (successReport codec signal count n uncertain contentType body)
      else statusVerdict codec n uncertain status retryAfter a.wall
  | .connect => .retry ⟨uncertain, .rejected "connect", n⟩ none
  | .transport => .retry ⟨true, .unknown "transport", n⟩ none
  | .deadline => .done ⟨.unknown "request_deadline", n, true⟩

/-! ## The loop -/

def ExportOutcome.isRejected : ExportOutcome → Bool
  | .rejected _ => true
  | _ => false

/-- After the loop: an earlier ambiguous attempt overrides a later rejection. -/
def finishExport (p : Progress) : ExportReport :=
  if p.uncertain && p.last.isRejected then
    ⟨.unknown "earlier_attempt_unknown", p.attempts, p.uncertain⟩
  else ⟨p.last, p.attempts, p.uncertain⟩

/-- The passes from attempt `n` on, with the results they saw.  The first
argument counts the passes the range `1..=3` has left. -/
def exportFrom (codec : Codec) (env : ExportEnv) (signal : Signal) (count deadline : Nat) :
    Nat → Nat → Progress → ExportReport × List AttemptResult
  | 0, _, p => (finishExport p, [])
  | left + 1, n, p =>
      let a := env.attempt n
      if deadline ≤ a.start then (finishExport p, [])
      else
        match attemptVerdict codec signal count n p.uncertain a with
        | .done r => (r, [a.result])
        | .retry p' retryAfter =>
            if n = 3 then (finishExport p', [a.result])
            else if deadline - a.settled ≤ retryAfter.getD a.jitter then
              (finishExport p', [a.result])
            else
              let (r, wire) := exportFrom codec env signal count deadline left (n + 1) p'
              (r, a.result :: wire)

def initialProgress : Progress := ⟨false, .rejected "deadline_before_send", 0⟩

/-- `OtlpExporter::export`.  A request is its encoded length here, and `count`
the number of spans or data points it carries. -/
def OtlpExporter.export (self : OtlpExporter) (codec : Codec) (env : ExportEnv)
    (encodedLen : Nat) (target : SignalExportConfig) (signal : Signal) (count deadline : Nat) :
    ExportReport × List AttemptResult :=
  if self.sdkDisabled then (⟨.accepted, 0, false⟩, [])
  else
    match target.disabledReason with
    | some reason => (⟨.rejected reason, 0, false⟩, [])
    | none =>
        if encodedLen > maxRequestBytes then (⟨.rejected "request_size", 0, false⟩, [])
        else if target.gzip && env.gzipFails then (⟨.rejected "encode", 0, false⟩, [])
        else
          exportFrom codec env signal count
            (min deadline (env.now + max target.timeout exportDeadline)) 3 1 initialProgress

/-! ## What an attempt says about the delivery -/

/-- The success response the collector sends: status 200, protobuf, a body that
reads to its end and decodes, and at most as many rejections as were sent. -/
structure Trusted (codec : Codec) (signal : Signal) (count : Nat) (result : AttemptResult)
    (outcome : ExportOutcome) : Prop where
  response : ∃ contentType retryAfter body data partialSuccess,
    result = .response 200 contentType retryAfter body ∧ isProtobuf contentType = true ∧
      readBody [] body = .ok data ∧ codec.decode signal data = some partialSuccess ∧
      match partialSuccess with
      | none => outcome = .accepted
      | some (rejected, warning) =>
          0 ≤ rejected ∧ outcome = .partiallyAccepted rejected.toNat warning
  bounded : ∀ rejected warning, outcome = .partiallyAccepted rejected warning → rejected ≤ count

/-- The delivery stays open after the attempt: a transport error that is not a
connect error, a deadline, or a success whose answer cannot be read. -/
def Ambiguous (codec : Codec) (signal : Signal) (count : Nat) (result : AttemptResult) : Prop :=
  match result with
  | .connect => False
  | .transport => True
  | .deadline => True
  | .response status _ _ _ =>
      isSuccess status = true ∧ ∀ outcome, ¬ Trusted codec signal count result outcome

def ExportOutcome.Confirms : ExportOutcome → Prop
  | .accepted => True
  | .partiallyAccepted _ _ => True
  | _ => False

theorem statusOutcome_not_confirms (status : Nat) : ¬ (statusOutcome status).Confirms := by
  unfold statusOutcome
  split <;> simp [ExportOutcome.Confirms]

/-- A decoded answer confirms the delivery only as a trusted one. -/
theorem decodeResponse_trusted {codec : Codec} {signal : Signal} {count : Nat}
    {contentType retryAfter : Option String} {body : List ChunkRead} {data : List UInt8}
    (hct : isProtobuf contentType = true) (hread : readBody [] body = .ok data)
    (hconf : (decodeResponse codec signal data count).Confirms) :
    Trusted codec signal count (.response 200 contentType retryAfter body)
      (decodeResponse codec signal data count) := by
  unfold decodeResponse at hconf ⊢
  cases hd : codec.decode signal data with
  | none =>
      simp only [hd] at hconf
      exact hconf.elim
  | some answer =>
      cases answer with
      | none =>
          exact ⟨⟨contentType, retryAfter, body, data, none, rfl, hct, hread, hd, rfl⟩,
            fun _ _ h => by simp at h⟩
      | some part =>
          obtain ⟨rejected, warning⟩ := part
          by_cases hle : 0 ≤ rejected ∧ rejected.toNat ≤ count
          · simp only [if_pos hle]
            refine ⟨⟨contentType, retryAfter, body, data, some (rejected, warning), rfl, hct,
              hread, hd, hle.1, rfl⟩, fun r w h => ?_⟩
            cases h
            exact hle.2
          · simp only [hd, if_neg hle] at hconf
            exact hconf.elim

theorem decodeResponse_not_rejected (codec : Codec) (signal : Signal) (data : List UInt8)
    (count : Nat) : (decodeResponse codec signal data count).isRejected = false := by
  unfold decodeResponse
  split
  · rfl
  · split <;> rfl
  · rfl

/-! ## Reports and the attempts behind them -/

/-- What a report owes to the attempts it counts. -/
structure Sound (codec : Codec) (env : ExportEnv) (signal : Signal) (count : Nat)
    (r : ExportReport) : Prop where
  attempts : r.attempts ≤ 3
  confirmed : r.outcome.Confirms →
    1 ≤ r.attempts ∧ Trusted codec signal count (env.attempt r.attempts).result r.outcome
  rejected : r.outcome.isRejected = true →
    ∀ i, 1 ≤ i → i ≤ r.attempts → ¬ Ambiguous codec signal count (env.attempt i).result
  duplicate : ∀ i, 1 ≤ i → i < r.attempts →
    (env.attempt i).result = .transport → r.mayDuplicate = true

/-- Before attempt `n + 1` the loop has made `n` attempts, none of them confirmed
the delivery, and it is uncertain once one of them was ambiguous. -/
structure LoopInv (codec : Codec) (env : ExportEnv) (signal : Signal) (count n : Nat)
    (p : Progress) : Prop where
  attempts : p.attempts = n
  open_ : ¬ p.last.Confirms
  uncertain : ∀ i, 1 ≤ i → i ≤ n → Ambiguous codec signal count (env.attempt i).result →
    p.uncertain = true

theorem initialProgress_inv (codec : Codec) (env : ExportEnv) (signal : Signal) (count : Nat) :
    LoopInv codec env signal count 0 initialProgress :=
  ⟨rfl, by simp [initialProgress, ExportOutcome.Confirms], fun i h1 h2 => by omega⟩

section
variable {codec : Codec} {env : ExportEnv} {signal : Signal} {count n : Nat} {p : Progress}

/-- A transport error behind the loop has set the flag. -/
theorem LoopInv.uncertain_of_transport (h : LoopInv codec env signal count n p) {i : Nat}
    (h1 : 1 ≤ i) (h2 : i ≤ n) (ht : (env.attempt i).result = .transport) :
    p.uncertain = true :=
  h.uncertain i h1 h2 (by rw [ht]; exact trivial)

theorem finishExport_sound (h : LoopInv codec env signal count n p) (hn : n ≤ 3) :
    Sound codec env signal count (finishExport p) := by
  have hp := h.attempts
  have hdup : ∀ i, 1 ≤ i → i < p.attempts → (env.attempt i).result = .transport →
      p.uncertain = true := fun i h1 h2 ht => h.uncertain_of_transport h1 (by omega) ht
  unfold finishExport
  by_cases hover : (p.uncertain && p.last.isRejected) = true
  · rw [if_pos hover]
    exact ⟨hp ▸ hn, fun hc => hc.elim, nofun, hdup⟩
  · rw [if_neg hover]
    refine ⟨hp ▸ hn, fun hc => absurd hc h.open_, fun hr i h1 h2 ha => ?_, hdup⟩
    have hu := h.uncertain i h1 (hp ▸ h2) ha
    rw [hu, Bool.true_and] at hover
    exact hover hr

/-- A report that neither confirms nor rejects owes only the duplicate flag. -/
theorem unknown_sound {reason : String} {dup : Bool} (h : LoopInv codec env signal count n p)
    (hn : n + 1 ≤ 3) (hdup : p.uncertain = true → dup = true) :
    Sound codec env signal count ⟨.unknown reason, n + 1, dup⟩ :=
  ⟨hn, fun hc => hc.elim, nofun,
    fun _ h1 h2 ht => hdup (h.uncertain_of_transport h1 (Nat.le_of_lt_succ h2) ht)⟩

/-- The variables after attempt `n + 1` when it does not return. -/
theorem LoopInv.extend (h : LoopInv codec env signal count n p) {p' : Progress}
    (hat : p'.attempts = n + 1) (hopen : ¬ p'.last.Confirms)
    (hmono : p.uncertain = true → p'.uncertain = true)
    (hnew : Ambiguous codec signal count (env.attempt (n + 1)).result → p'.uncertain = true) :
    LoopInv codec env signal count (n + 1) p' := by
  refine ⟨hat, hopen, fun i h1 h2 ha => ?_⟩
  rcases Nat.lt_or_ge n i with hlt | hle
  · have hi : i = n + 1 := by omega
    exact hnew (hi ▸ ha)
  · exact hmono (h.uncertain i h1 hle ha)

theorem successReport_sound (h : LoopInv codec env signal count n p) (hn : n + 1 ≤ 3)
    {contentType retryAfter : Option String} {body : List ChunkRead}
    (hres : (env.attempt (n + 1)).result = .response 200 contentType retryAfter body) :
    Sound codec env signal count
      (successReport codec signal count (n + 1) p.uncertain contentType body) := by
  unfold successReport
  by_cases hct : isProtobuf contentType = true
  · rw [if_pos hct]
    cases hread : readBody [] body with
    | error reason => exact unknown_sound h hn id
    | ok data =>
        refine ⟨hn, fun hc => ⟨Nat.le_add_left 1 n, ?_⟩, fun hr => ?_, fun i h1 h2 ht => ?_⟩
        · rw [hres]
          exact decodeResponse_trusted hct hread hc
        · rw [decodeResponse_not_rejected] at hr
          cases hr
        · exact h.uncertain_of_transport h1 (Nat.le_of_lt_succ h2) ht
  · rw [if_neg hct]
    exact unknown_sound h hn id

/-- A verdict is good when it is a sound report or keeps the invariant. -/
def Verdict.Good (codec : Codec) (env : ExportEnv) (signal : Signal) (count n : Nat) :
    Verdict → Prop
  | .done r => Sound codec env signal count r
  | .retry p _ => LoopInv codec env signal count n p

/-- A refusal is final only when no attempt so far was ambiguous. -/
theorem refusal_sound (h : LoopInv codec env signal count n p) (hn : n + 1 ≤ 3)
    (hu : p.uncertain = false)
    (hclear : ¬ Ambiguous codec signal count (env.attempt (n + 1)).result) (reason : String) :
    Sound codec env signal count ⟨.rejected reason, n + 1, false⟩ := by
  have hnone : ∀ i, 1 ≤ i → i ≤ n + 1 →
      ¬ Ambiguous codec signal count (env.attempt i).result := by
    intro i h1 h2 ha
    rcases Nat.lt_or_ge n i with hlt | hle
    · have hi : i = n + 1 := by omega
      exact hclear (hi ▸ ha)
    · have := h.uncertain i h1 hle ha
      rw [hu] at this
      cases this
  refine ⟨hn, fun hc => hc.elim, fun _ => hnone, fun i h1 h2 ht => ?_⟩
  exact absurd (by rw [ht]; exact trivial) (hnone i h1 (Nat.le_of_lt h2))

theorem retryableStatus_not_success {status : Nat} (h : retryableStatus status = true) :
    isSuccess status = false := by
  simp only [retryableStatus, Bool.or_eq_true, beq_iff_eq] at h
  rcases h with ((rfl | rfl) | rfl) | rfl <;> rfl

theorem statusVerdict_good (h : LoopInv codec env signal count n p) (hn : n + 1 ≤ 3)
    {status : Nat} {contentType retryAfter : Option String} {body : List ChunkRead}
    (hres : (env.attempt (n + 1)).result = .response status contentType retryAfter body)
    (wall : Nat) :
    (statusVerdict codec (n + 1) p.uncertain status retryAfter wall).Good
      codec env signal count (n + 1) := by
  have hclear : isSuccess status = false →
      ¬ Ambiguous codec signal count (env.attempt (n + 1)).result := by
    intro hs
    rw [hres]
    exact fun ha => Bool.false_ne_true (hs.symm.trans ha.1)
  unfold statusVerdict
  by_cases hretry : retryableStatus status = true
  · rw [if_pos hretry]
    exact h.extend rfl (statusOutcome_not_confirms status) id
      fun ha => absurd ha (hclear (retryableStatus_not_success hretry))
  · rw [if_neg hretry]
    cases hu : p.uncertain with
    | true => exact unknown_sound h hn fun _ => rfl
    | false =>
        simp only [Bool.false_eq_true, if_false, statusOutcome]
        cases hs : isSuccess status with
        | true => exact unknown_sound h hn fun h' => absurd (hu.symm.trans h') (by decide)
        | false => exact refusal_sound h hn hu (hclear hs) "http_status"

/-- What one pass does: it leaves with a sound report or keeps the invariant. -/
theorem attemptVerdict_good (h : LoopInv codec env signal count n p) (hn : n + 1 ≤ 3) :
    (attemptVerdict codec signal count (n + 1) p.uncertain (env.attempt (n + 1))).Good
      codec env signal count (n + 1) := by
  unfold attemptVerdict
  cases hres : (env.attempt (n + 1)).result with
  | connect => exact h.extend rfl (fun hc => hc) id (by rw [hres]; exact False.elim)
  | transport => exact h.extend rfl (fun hc => hc) (fun _ => rfl) (fun _ => rfl)
  | deadline => exact unknown_sound h hn fun _ => rfl
  | response status contentType retryAfter body =>
      by_cases hstatus : status = 200
      · simp only [if_pos hstatus]
        exact successReport_sound h hn (hstatus ▸ hres)
      · simp only [if_neg hstatus]
        exact statusVerdict_good h hn hres _

/-- The loop, by induction on the passes it has left. -/
theorem exportFrom_sound {deadline : Nat} :
    ∀ (left n : Nat) (p : Progress), LoopInv codec env signal count n p → n + left ≤ 3 →
      Sound codec env signal count
        (exportFrom codec env signal count deadline left (n + 1) p).1
  | 0, n, p, h, hn => finishExport_sound h (by omega)
  | left + 1, n, p, h, hn => by
      have hv := attemptVerdict_good h (by omega)
      simp only [exportFrom]
      split
      · exact finishExport_sound h (by omega)
      · cases hr : attemptVerdict codec signal count (n + 1) p.uncertain (env.attempt (n + 1)) with
        | done r =>
            rw [hr] at hv
            exact hv
        | retry p' retryAfter =>
            rw [hr] at hv
            simp only
            split
            · exact finishExport_sound hv (by omega)
            · split
              · exact finishExport_sound hv (by omega)
              · exact exportFrom_sound left (n + 1) p' hv (by omega)

theorem finishExport_attempts (p : Progress) : (finishExport p).attempts = p.attempts := by
  unfold finishExport
  split <;> rfl

/-- A verdict counts the attempt it is about. -/
def Verdict.attempts : Verdict → Nat
  | .done r => r.attempts
  | .retry p _ => p.attempts

theorem attemptVerdict_attempts (codec : Codec) (signal : Signal) (count n : Nat)
    (uncertain : Bool) (a : Attempt) :
    (attemptVerdict codec signal count n uncertain a).attempts = n := by
  unfold attemptVerdict
  cases a.result with
  | connect => rfl
  | transport => rfl
  | deadline => rfl
  | response status contentType retryAfter body =>
      simp only [statusVerdict, successReport]
      repeat' split
      all_goals rfl

/-- The wire of the loop is the results of the attempts the report counts. -/
theorem exportFrom_wire {deadline : Nat} :
    ∀ (left n : Nat) (p : Progress), p.attempts = n →
      ∃ k, (exportFrom codec env signal count deadline left (n + 1) p).1.attempts = n + k ∧
        (exportFrom codec env signal count deadline left (n + 1) p).2 =
          (List.range' (n + 1) k).map fun i => (env.attempt i).result
  | 0, n, p, hp => ⟨0, (finishExport_attempts p).trans hp, rfl⟩
  | left + 1, n, p, hp => by
      have hv := attemptVerdict_attempts codec signal count (n + 1) p.uncertain (env.attempt (n + 1))
      simp only [exportFrom]
      split
      · exact ⟨0, (finishExport_attempts p).trans hp, rfl⟩
      · cases hr : attemptVerdict codec signal count (n + 1) p.uncertain (env.attempt (n + 1)) with
        | done r =>
            rw [hr] at hv
            exact ⟨1, hv, rfl⟩
        | retry p' retryAfter =>
            rw [hr] at hv
            have hp' : p'.attempts = n + 1 := hv
            simp only
            split
            · exact ⟨1, (finishExport_attempts p').trans hp', rfl⟩
            · split
              · exact ⟨1, (finishExport_attempts p').trans hp', rfl⟩
              · obtain ⟨k, hk, hwire⟩ := exportFrom_wire left (n + 1) p' hp'
                refine ⟨k + 1, hk.trans (by omega), ?_⟩
                rw [hwire]
                rfl

end

/-! ## The report and the wire -/

/-- What a report owes to the requests that were sent. -/
structure Honest (codec : Codec) (signal : Signal) (count : Nat) (r : ExportReport)
    (wire : List AttemptResult) : Prop where
  attempts : wire.length = r.attempts ∧ wire.length ≤ 3
  confirmed : r.outcome.Confirms →
    ∃ last, wire.getLast? = some last ∧ Trusted codec signal count last r.outcome
  rejected : r.outcome.isRejected = true →
    ∀ result ∈ wire, ¬ Ambiguous codec signal count result
  duplicate : ∀ i, i + 1 < wire.length → wire[i]? = some .transport → r.mayDuplicate = true

theorem Sound.honest {codec : Codec} {env : ExportEnv} {signal : Signal} {count : Nat}
    {r : ExportReport} (h : Sound codec env signal count r) :
    Honest codec signal count r
      ((List.range' 1 r.attempts).map fun i => (env.attempt i).result) := by
  refine ⟨⟨by simp, by simpa using h.attempts⟩, fun hc => ?_, fun hr result hmem => ?_,
    fun i hi ht => ?_⟩
  · obtain ⟨h1, htrusted⟩ := h.confirmed hc
    refine ⟨_, ?_, htrusted⟩
    rw [List.getLast?_map, List.getLast?_range', if_neg (by omega), Option.map_some]
    congr 3
    omega
  · obtain ⟨i, hi, rfl⟩ := List.mem_map.mp hmem
    obtain ⟨h1, h2⟩ := List.mem_range'_1.mp hi
    exact h.rejected hr i h1 (by omega)
  · simp only [List.length_map, List.length_range'] at hi
    have hget : ((List.range' 1 r.attempts).map fun i => (env.attempt i).result)[i]? =
        some (env.attempt (i + 1)).result := by
      rw [List.getElem?_map, List.getElem?_range' (by omega), Option.map_some, Nat.one_mul,
        Nat.add_comm]
    rw [hget] at ht
    exact h.duplicate (i + 1) (by omega) hi (Option.some.inj ht)

/-- **The exporter never misreports a delivery.**  For every sequence of attempt
results, every clock and every deadline: at most three requests; a confirmation
only from a trusted last answer; a rejection only when no request was ambiguous;
and the duplicate flag after a transport error that was followed by a request. -/
theorem OtlpExporter.export_honest (self : OtlpExporter) (codec : Codec) (env : ExportEnv)
    (encodedLen : Nat) (target : SignalExportConfig) (signal : Signal) (count deadline : Nat)
    (henabled : self.sdkDisabled = false) (hsignal : target.disabledReason = none)
    (hsize : encodedLen ≤ maxRequestBytes) :
    Honest codec signal count
      (self.export codec env encodedLen target signal count deadline).1
      (self.export codec env encodedLen target signal count deadline).2 := by
  unfold OtlpExporter.export
  simp only [henabled, hsignal, Bool.false_eq_true, if_false, Nat.not_lt.mpr hsize]
  split
  · exact ⟨⟨rfl, Nat.zero_le 3⟩, fun hc => hc.elim, nofun, nofun⟩
  · generalize min deadline (env.now + max target.timeout exportDeadline) = until'
    obtain ⟨k, hk, hwire⟩ : ∃ k,
        (exportFrom codec env signal count until' 3 1 initialProgress).1.attempts = 0 + k ∧
          (exportFrom codec env signal count until' 3 1 initialProgress).2 = _ :=
      exportFrom_wire 3 0 initialProgress rfl
    rw [hwire, ← hk.trans (Nat.zero_add k)]
    exact (exportFrom_sound 3 0 initialProgress (initialProgress_inv codec env signal count)
      (by omega)).honest

/-- Whoever the exporter is, it reports no more rejected spans than it sent. -/
theorem OtlpExporter.export_bounded (self : OtlpExporter) (codec : Codec) (env : ExportEnv)
    (encodedLen : Nat) (target : SignalExportConfig) (signal : Signal) (count deadline : Nat)
    {rejected : Nat} {warning : Bool}
    (h : (self.export codec env encodedLen target signal count deadline).1.outcome =
      .partiallyAccepted rejected warning) : rejected ≤ count := by
  unfold OtlpExporter.export at h
  split at h
  · cases h
  · split at h
    · cases h
    · split at h
      · cases h
      · split at h
        · cases h
        · have hsound : Sound codec env signal count (exportFrom codec env signal count
              (min deadline (env.now + max target.timeout exportDeadline)) 3 1 initialProgress).1 :=
            exportFrom_sound 3 0 initialProgress (initialProgress_inv codec env signal count)
              (by omega)
          obtain ⟨_, htrusted⟩ := hsound.confirmed (by rw [h]; exact trivial)
          exact htrusted.bounded rejected warning h

/-! ## The size of a request -/

/-- The outcome of the size check. -/
def oversized : ExportOutcome := .rejected "request_size"

theorem statusOutcome_ne_oversized (status : Nat) : statusOutcome status ≠ oversized := by
  unfold statusOutcome
  split <;> decide

def Verdict.outcome : Verdict → ExportOutcome
  | .done r => r.outcome
  | .retry p _ => p.last

theorem decodeResponse_ne_oversized (codec : Codec) (signal : Signal) (data : List UInt8)
    (count : Nat) : decodeResponse codec signal data count ≠ oversized := by
  intro same
  have accepted := decodeResponse_not_rejected codec signal data count
  rw [same] at accepted
  cases accepted

/-- No attempt ends in the outcome of the size check. -/
theorem attemptVerdict_ne_oversized (codec : Codec) (signal : Signal) (count n : Nat)
    (uncertain : Bool) (a : Attempt) :
    (attemptVerdict codec signal count n uncertain a).outcome ≠ oversized := by
  unfold attemptVerdict
  cases a.result with
  | connect => exact show ExportOutcome.rejected "connect" ≠ oversized by decide
  | transport => exact nofun
  | deadline => exact nofun
  | response status contentType retryAfter body =>
      simp only [statusVerdict, successReport]
      repeat' split
      all_goals first
        | exact decodeResponse_ne_oversized codec signal _ count
        | exact statusOutcome_ne_oversized status
        | exact nofun

theorem finishExport_ne_oversized {p : Progress} (last : p.last ≠ oversized) :
    (finishExport p).outcome ≠ oversized := by
  unfold finishExport
  split
  · exact nofun
  · exact last

theorem exportFrom_ne_oversized (codec : Codec) (env : ExportEnv) (signal : Signal)
    (count deadline : Nat) : ∀ (left n : Nat) (p : Progress), p.last ≠ oversized →
      (exportFrom codec env signal count deadline left n p).1.outcome ≠ oversized
  | 0, _, _, last => finishExport_ne_oversized last
  | left + 1, n, p, last => by
      have verdict := attemptVerdict_ne_oversized codec signal count n p.uncertain (env.attempt n)
      simp only [exportFrom]
      split
      · exact finishExport_ne_oversized last
      · cases hr : attemptVerdict codec signal count n p.uncertain (env.attempt n) with
        | done r =>
            rw [hr] at verdict
            exact verdict
        | retry p' retryAfter =>
            rw [hr] at verdict
            simp only
            split
            · exact finishExport_ne_oversized verdict
            · split
              · exact finishExport_ne_oversized verdict
              · exact exportFrom_ne_oversized codec env signal count deadline left (n + 1) p' verdict

/-- A request within the limit passes the size check. -/
theorem OtlpExporter.export_ne_oversized (self : OtlpExporter) (codec : Codec) (env : ExportEnv)
    {encodedLen : Nat} (fits : encodedLen ≤ maxRequestBytes) {target : SignalExportConfig}
    (enabled : target.disabledReason ≠ some "request_size") (signal : Signal)
    (count deadline : Nat) :
    (self.export codec env encodedLen target signal count deadline).1.outcome ≠ oversized := by
  unfold OtlpExporter.export
  split
  · decide
  · split
    next reason disabled =>
      intro same
      cases same
      exact enabled disabled
    next =>
      rw [if_neg (Nat.not_lt.mpr fits)]
      split
      · decide
      · exact exportFrom_ne_oversized codec env signal count _ 3 1 initialProgress (by decide)

/-- A traces target with no headers. -/
def plainTarget : SignalExportConfig :=
  ⟨"http://127.0.0.1:4318/v1/traces", [], false, none, exportDeadline, none⟩

/-- Decoders that know the empty message, which is a full success, and no date. -/
def emptyCodec : Codec :=
  ⟨fun _ bytes => if bytes = [] then some none else none, fun _ => none⟩

/-- A collector that loses the first answer and answers the second request with
an empty message. -/
def lossyOnce : ExportEnv where
  now := 0
  gzipFails := false
  attempt n :=
    if n = 1 then ⟨0, .transport, 0, 50, 1⟩
    else ⟨100, .response 200 (some "application/x-protobuf") none [], 0, 50, 101⟩

/-- The second request is accepted, and the report says the spans may be there
twice. -/
theorem OtlpExporter.export_honest_lossyOnce :
    OtlpExporter.export ⟨plainTarget, plainTarget, false⟩ emptyCodec lossyOnce 128 plainTarget
        .traces 1 exportDeadline =
      (⟨.accepted, 2, true⟩,
        [.transport, .response 200 (some "application/x-protobuf") none []]) ∧
    Honest emptyCodec .traces 1
      (OtlpExporter.export ⟨plainTarget, plainTarget, false⟩ emptyCodec lossyOnce 128 plainTarget
        .traces 1 exportDeadline).1
      (OtlpExporter.export ⟨plainTarget, plainTarget, false⟩ emptyCodec lossyOnce 128 plainTarget
        .traces 1 exportDeadline).2 :=
  ⟨by decide, OtlpExporter.export_honest _ _ lossyOnce 128 plainTarget .traces 1 exportDeadline
    rfl rfl (by decide)⟩

end AgentOtelBridge.Exporter
