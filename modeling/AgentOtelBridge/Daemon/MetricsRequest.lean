import AgentOtelBridge.Daemon.Batch
import AgentOtelBridge.Daemon.Diagnostics
import AgentOtelBridge.Lib.F64
import AgentOtelBridge.Lib.Text
import AgentOtelBridge.Ipc.Server

/-!
# Metrics requests

The metrics of quota snapshots, and the eight metrics of the bridge that are appended to them.
The messages are records with their encoded lengths, as those of traces are.

A point of a number takes the same bytes whatever the number is, and so the metrics of the
bridge have one length for each of their two sets of names.
-/

namespace AgentOtelBridge

/-! ## Messages -/

/-- `number_data_point::Value`. -/
inductive NumberValue where
  | asDouble (value : F64)
  | asInt (value : Int)
deriving DecidableEq

instance : Message NumberValue where
  encodedLen
    | .asDouble _ => 9
    | .asInt _ => 9

structure NumberDataPoint where
  attributes : List KeyValue
  startTimeUnixNano : Nat
  timeUnixNano : Nat
  value : Option NumberValue

instance : Message NumberDataPoint where
  encodedLen point :=
    (point.attributes.map fun attr => delimitedLen (encodedLen attr)).sum +
      fixed64Len point.startTimeUnixNano + fixed64Len point.timeUnixNano +
      point.value.elim 0 encodedLen

def pointsLen (points : List NumberDataPoint) : Nat :=
  (points.map fun point => delimitedLen (encodedLen point)).sum

/-- `metric::Data`, of a gauge and of a sum. -/
inductive MetricData where
  | gauge (dataPoints : List NumberDataPoint)
  | sum (dataPoints : List NumberDataPoint) (aggregationTemporality : Int) (isMonotonic : Bool)

instance : Message MetricData where
  encodedLen
    | .gauge points => delimitedLen (pointsLen points)
    | .sum points temporality isMonotonic =>
      delimitedLen (pointsLen points + signedLen temporality + if isMonotonic then 2 else 0)

structure Metric where
  name : String
  description : String
  unit : String
  data : Option MetricData

instance : Message Metric where
  encodedLen metric :=
    stringLen metric.name + stringLen metric.description + stringLen metric.unit +
      metric.data.elim 0 encodedLen

/-- The bytes of some metrics in their scope. -/
def metricsLen (metrics : List Metric) : Nat :=
  (metrics.map fun metric => delimitedLen (encodedLen metric)).sum

structure ScopeMetrics where
  scope : Option InstrumentationScope := none
  metrics : List Metric := []
  schemaUrl : String := ""

instance : Message ScopeMetrics where
  encodedLen s :=
    (s.scope.elim 0 fun scope => delimitedLen (encodedLen scope)) + metricsLen s.metrics +
      stringLen s.schemaUrl

structure ResourceMetrics where
  resource : Option Resource := none
  scopeMetrics : List ScopeMetrics := []
  schemaUrl : String := ""

instance : Message ResourceMetrics where
  encodedLen r :=
    (r.resource.elim 0 fun resource => delimitedLen (encodedLen resource)) +
      (r.scopeMetrics.map fun s => delimitedLen (encodedLen s)).sum + stringLen r.schemaUrl

structure ExportMetricsServiceRequest where
  resourceMetrics : List ResourceMetrics

instance : Message ExportMetricsServiceRequest where
  encodedLen request := (request.resourceMetrics.map fun r => delimitedLen (encodedLen r)).sum

/-! ## Quota metrics -/

/-- A `QuotaSnapshot`. -/
structure MetricsSnapshot where
  remainingFraction : F64
  secondsToReset : F64
  observedAtUnixNano : Nat
  bucket : String
  group : String

def metricAgentQuotaRemaining : String := "agent.quota.remaining_fraction"
def metricAgentQuotaReset : String := "agent.quota.seconds_to_reset"
def metricFleetBottleneckRatio : String := "agent.fleet.bottleneck_ratio"
def metricAgyQuotaRemaining : String := "agy.quota.remaining_fraction"
def metricAgyQuotaReset : String := "agy.quota.seconds_to_reset"

def quotaGauge (name unit : String) (value : F64) (observedNs : Nat) (bucket group : String) :
    Metric where
  name
  description := ""
  unit
  data := some (.gauge [{
    attributes := [kvString "bucket" bucket, kvString "group" group,
      kvString "gen_ai.provider.name" group]
    startTimeUnixNano := 0
    timeUnixNano := observedNs
    value := some (.asDouble value) }])

/-- A gauge of a snapshot. -/
def MetricsSnapshot.gauge (name unit : String) (value : MetricsSnapshot → F64)
    (snapshot : MetricsSnapshot) : Metric :=
  quotaGauge name unit (value snapshot) snapshot.observedAtUnixNano snapshot.bucket snapshot.group

/-- What remains is a share. -/
def MetricsSnapshot.hasRemaining (snapshot : MetricsSnapshot) : Bool :=
  snapshot.remainingFraction.isFinite && F64.zero.le snapshot.remainingFraction &&
    snapshot.remainingFraction.le .one

def MetricsSnapshot.hasReset (snapshot : MetricsSnapshot) : Bool :=
  snapshot.secondsToReset.isFinite && F64.zero.le snapshot.secondsToReset

def MetricsSnapshot.isGemini (snapshot : MetricsSnapshot) : Bool :=
  snapshot.group = "gemini" || Text.contains snapshot.bucket "gemini"

/-- What the passes over the snapshots share. -/
structure QuotaPass where
  metrics : List Metric
  minRemaining : F64
  hasFiniteRemaining : Bool
  latestObservedNs : Nat

namespace QuotaPass

def start : QuotaPass := ⟨[], .one, false, 0⟩

def push (pass : QuotaPass) (metric : Metric) : QuotaPass :=
  { pass with metrics := pass.metrics ++ [metric] }

def observe (pass : QuotaPass) (snapshot : MetricsSnapshot) : QuotaPass :=
  if pass.latestObservedNs < snapshot.observedAtUnixNano then
    { pass with latestObservedNs := snapshot.observedAtUnixNano }
  else pass

def remaining (pass : QuotaPass) (snapshot : MetricsSnapshot) : QuotaPass :=
  if snapshot.hasRemaining then
    let pass := { pass with
      hasFiniteRemaining := true
      minRemaining :=
        if snapshot.remainingFraction.lt pass.minRemaining then snapshot.remainingFraction
        else pass.minRemaining }
    (pass.observe snapshot).push
      (snapshot.gauge metricAgentQuotaRemaining "1" MetricsSnapshot.remainingFraction)
  else pass

def bottleneck (pass : QuotaPass) : QuotaPass :=
  if pass.hasFiniteRemaining && 0 < pass.latestObservedNs then
    pass.push (quotaGauge metricFleetBottleneckRatio "1" pass.minRemaining pass.latestObservedNs
      "fleet-bottleneck" "all")
  else pass

def legacyRemaining (pass : QuotaPass) (snapshot : MetricsSnapshot) : QuotaPass :=
  if snapshot.hasRemaining && snapshot.isGemini then
    pass.push (snapshot.gauge metricAgyQuotaRemaining "1" MetricsSnapshot.remainingFraction)
  else pass

def reset (pass : QuotaPass) (snapshot : MetricsSnapshot) : QuotaPass :=
  if snapshot.hasReset then
    (pass.observe snapshot).push
      (snapshot.gauge metricAgentQuotaReset "s" MetricsSnapshot.secondsToReset)
  else pass

def legacyReset (pass : QuotaPass) (snapshot : MetricsSnapshot) : QuotaPass :=
  if snapshot.hasReset && snapshot.isGemini then
    pass.push (snapshot.gauge metricAgyQuotaReset "s" MetricsSnapshot.secondsToReset)
  else pass

end QuotaPass

def buildMultiQuotaMetricsRequestOpts (resource : Resource) (snapshots : List MetricsSnapshot)
    (emitLegacyAliases : Bool) : ExportMetricsServiceRequest :=
  let pass := (snapshots.foldl QuotaPass.remaining .start).bottleneck
  let pass := if emitLegacyAliases then snapshots.foldl QuotaPass.legacyRemaining pass else pass
  let pass := snapshots.foldl QuotaPass.reset pass
  let pass := if emitLegacyAliases then snapshots.foldl QuotaPass.legacyReset pass else pass
  ⟨[{ resource := some resource
      scopeMetrics := [{ scope := some instrumentationScope, metrics := pass.metrics }] }]⟩

/-! ## What the passes come to -/

def remainingGauges (name : String) (snapshots : List MetricsSnapshot) : List Metric :=
  (snapshots.filter MetricsSnapshot.hasRemaining).map
    (MetricsSnapshot.gauge name "1" MetricsSnapshot.remainingFraction)

def resetGauges (name : String) (snapshots : List MetricsSnapshot) : List Metric :=
  (snapshots.filter MetricsSnapshot.hasReset).map
    (MetricsSnapshot.gauge name "s" MetricsSnapshot.secondsToReset)

/-- The ratio of the fleet is the least that remains. -/
def bottleneckGauge (snapshots : List MetricsSnapshot) : List Metric :=
  let remaining := snapshots.filter MetricsSnapshot.hasRemaining
  let minRemaining := F64.minFrom .one (remaining.map MetricsSnapshot.remainingFraction)
  let latestObservedNs := (remaining.map MetricsSnapshot.observedAtUnixNano).foldl max 0
  if remaining ≠ [] ∧ 0 < latestObservedNs then
    [quotaGauge metricFleetBottleneckRatio "1" minRemaining latestObservedNs "fleet-bottleneck" "all"]
  else []

/-- The metrics of some snapshots. -/
def quotaMetrics (snapshots : List MetricsSnapshot) (emitLegacyAliases : Bool) : List Metric :=
  let legacy := if emitLegacyAliases then snapshots.filter MetricsSnapshot.isGemini else []
  remainingGauges metricAgentQuotaRemaining snapshots ++ bottleneckGauge snapshots ++
    remainingGauges metricAgyQuotaRemaining legacy ++
    resetGauges metricAgentQuotaReset snapshots ++ resetGauges metricAgyQuotaReset legacy

namespace QuotaPass

theorem observe_eq (pass : QuotaPass) (snapshot : MetricsSnapshot) :
    pass.observe snapshot =
      { pass with latestObservedNs := max pass.latestObservedNs snapshot.observedAtUnixNano } := by
  unfold observe
  split
  next later => rw [max_eq_right later.le]
  next notLater => rw [max_eq_left (not_lt.mp notLater)]

/-- The first pass, from any state of it. -/
theorem foldl_remaining (snapshots : List MetricsSnapshot) (pass : QuotaPass) :
    let valid := snapshots.filter MetricsSnapshot.hasRemaining
    snapshots.foldl remaining pass =
      { metrics := pass.metrics ++ remainingGauges metricAgentQuotaRemaining snapshots
        minRemaining := F64.minFrom pass.minRemaining (valid.map MetricsSnapshot.remainingFraction)
        hasFiniteRemaining := pass.hasFiniteRemaining || !valid.isEmpty
        latestObservedNs :=
          (valid.map MetricsSnapshot.observedAtUnixNano).foldl max pass.latestObservedNs } := by
  induction snapshots generalizing pass with
  | nil => simp [remainingGauges, F64.minFrom]
  | cons snapshot snapshots ih =>
      rw [List.foldl_cons, ih]
      cases hasRemaining : snapshot.hasRemaining with
      | true =>
          simp [remaining, remainingGauges, hasRemaining, observe_eq, push, F64.minFrom]
      | false => simp [remaining, remainingGauges, hasRemaining]

/-- A pass that adds a gauge for some snapshots. -/
theorem metrics_foldl {step : QuotaPass → MetricsSnapshot → QuotaPass}
    {adds : MetricsSnapshot → Bool} {gauge : MetricsSnapshot → Metric}
    (adding : ∀ pass snapshot, (step pass snapshot).metrics =
      if adds snapshot then pass.metrics ++ [gauge snapshot] else pass.metrics)
    (snapshots : List MetricsSnapshot) (pass : QuotaPass) :
    (snapshots.foldl step pass).metrics = pass.metrics ++ (snapshots.filter adds).map gauge := by
  induction snapshots generalizing pass with
  | nil => simp
  | cons snapshot snapshots ih =>
      rw [List.foldl_cons, ih, adding]
      cases added : adds snapshot with
      | true => simp [added]
      | false => simp [added]

theorem metrics_legacyRemaining (snapshots : List MetricsSnapshot) (pass : QuotaPass) :
    (snapshots.foldl legacyRemaining pass).metrics = pass.metrics ++
      remainingGauges metricAgyQuotaRemaining (snapshots.filter MetricsSnapshot.isGemini) := by
  rw [remainingGauges, List.filter_filter]
  refine metrics_foldl (fun pass snapshot => ?_) snapshots pass
  unfold legacyRemaining
  split
  next => rfl
  next => rfl

theorem metrics_reset (snapshots : List MetricsSnapshot) (pass : QuotaPass) :
    (snapshots.foldl reset pass).metrics =
      pass.metrics ++ resetGauges metricAgentQuotaReset snapshots := by
  refine metrics_foldl (fun pass snapshot => ?_) snapshots pass
  unfold reset
  split
  next => rw [observe_eq]; rfl
  next => rfl

theorem metrics_legacyReset (snapshots : List MetricsSnapshot) (pass : QuotaPass) :
    (snapshots.foldl legacyReset pass).metrics = pass.metrics ++
      resetGauges metricAgyQuotaReset (snapshots.filter MetricsSnapshot.isGemini) := by
  rw [resetGauges, List.filter_filter]
  refine metrics_foldl (fun pass snapshot => ?_) snapshots pass
  unfold legacyReset
  split
  next => rfl
  next => rfl

/-- The first pass has the times of the snapshots with a share only when the ratio is added, and
what a later pass observes is not exported. -/
theorem metrics_bottleneck (snapshots : List MetricsSnapshot) :
    (snapshots.foldl remaining .start).bottleneck.metrics =
      remainingGauges metricAgentQuotaRemaining snapshots ++ bottleneckGauge snapshots := by
  rw [foldl_remaining]
  simp only [bottleneck, start, List.nil_append, Bool.false_or, bottleneckGauge]
  cases snapshots.filter MetricsSnapshot.hasRemaining with
  | nil => simp
  | cons snapshot valid =>
      simp only [List.isEmpty_cons, Bool.not_false, Bool.true_and, ne_eq, reduceCtorEq,
        not_false_eq_true, true_and]
      split
      next timed => rw [if_pos (of_decide_eq_true timed)]; rfl
      next timeless => rw [if_neg (mt decide_eq_true timeless), List.append_nil]

end QuotaPass

/-! ## The metrics of the bridge -/

/-- A point with its labels. -/
structure Point where
  labels : List (String × String)
  value : Nat

def point1 (key value : String) (count : Nat) : Point := ⟨[(key, value)], count⟩

def point2 (key1 value1 key2 value2 : String) (count : Nat) : Point :=
  ⟨[(key1, value1), (key2, value2)], count⟩

/-- A count is an `i64`, the greatest one if it is greater. -/
def numberPoints (points : List Point) (observedNs : Nat) : List NumberDataPoint :=
  points.map fun point => {
    attributes := point.labels.map fun label => kvString label.1 label.2
    startTimeUnixNano := 0
    timeUnixNano := observedNs
    value := some (.asInt (min point.value (2 ^ 63 - 1) : Nat)) }

/-- `AggregationTemporality::Cumulative`. -/
def cumulative : Int := 2

def counterMetric (name description unit : String) (observedNs : Nat) (points : List Point) : Metric :=
  ⟨name, description, unit, some (.sum (numberPoints points observedNs) cumulative true)⟩

def gaugeMetric (name description unit : String) (observedNs : Nat) (points : List Point) : Metric :=
  ⟨name, description, unit, some (.gauge (numberPoints points observedNs))⟩

def bridgeMetricName (genAiLatestExperimental : Bool) (stable optIn : String) : String :=
  if genAiLatestExperimental then optIn else stable

/-- `ContextCacheStats`, as far as it is exported. -/
structure ContextCacheStats where
  queued : Nat
  queueFull : Nat
  circuitOpen : Nat
  completed : Nat
  failed : Nat
  rejectedSnapshotSize : Nat
  activeWorkers : Nat
  stuckWorkers : Nat
  queuedKeys : Nat
  bytes : Nat

/-- What a tick reads of the daemon. -/
structure Readings where
  ingress : Ipc.IngressStats
  pipeline : Diagnostics
  context : ContextCacheStats

/-- What a daemon reads that has just started. -/
def Readings.zero : Readings := ⟨.zero, .zero, ⟨0, 0, 0, 0, 0, 0, 0, 0, 0, 0⟩⟩

/-- An `AtomicUsize` as an `u64`. -/
def usizeAsU64 (value : Int) : Nat := (value % 2 ^ 64).toNat

def bridgeMetrics (observedNs : Nat) (readings : Readings) (genAiLatestExperimental : Bool) :
    List Metric :=
  let name := bridgeMetricName genAiLatestExperimental
  let ingress := readings.ingress
  let pipeline := readings.pipeline
  let context := readings.context
  [counterMetric (name "agent.bridge.events.total" "agent.bridge.events")
      "Unique bridge events by processing stage and outcome." "\x7bevent\x7d" observedNs
      [point2 "stage" "frame_received" "outcome" "completed" ingress.received,
        point2 "stage" "admitted" "outcome" "completed" ingress.admitted,
        point2 "stage" "transformed" "outcome" "completed" pipeline.transformed,
        point2 "stage" "export_queued" "outcome" "completed" pipeline.exportQueued,
        point2 "stage" "backend" "outcome" "accepted" pipeline.accepted,
        point2 "stage" "backend" "outcome" "rejected" pipeline.rejected,
        point2 "stage" "backend" "outcome" "unknown" pipeline.unknown],
    counterMetric (name "agent.bridge.dropped.total" "agent.bridge.dropped")
      "Bridge events discarded before confirmed backend acceptance." "\x7bevent\x7d" observedNs
      [point1 "reason" "invalid_frame" ingress.invalid,
        point1 "reason" "read_failed" ingress.readFailed,
        point1 "reason" "read_deadline" ingress.readDeadline,
        point1 "reason" "ingress_capacity" ingress.capacity,
        point1 "reason" "control_capacity" ingress.controlDropped,
        point1 "reason" "invalid_event" pipeline.invalid,
        point1 "reason" "span_size" pipeline.spanSize,
        point1 "reason" "export_capacity" pipeline.exportCapacity,
        point1 "reason" "backend_rejected" pipeline.rejected,
        point1 "reason" "shutdown" pipeline.shutdownDropped,
        point1 "reason" "quota_activity_capacity" pipeline.quotaActivityDropped],
    gaugeMetric "agent.bridge.queue.items" "Current in-memory queue occupancy." "\x7bitem\x7d"
      observedNs
      [point1 "queue" "export" (usizeAsU64 pipeline.queuedItems),
        point1 "queue" "context_refresh" context.queuedKeys],
    gaugeMetric "agent.bridge.queue.bytes" "Current and peak byte reservations by bounded queue."
      "By" observedNs
      [point2 "queue" "ingress" "watermark" "current" (usizeAsU64 ingress.reservedBytes),
        point2 "queue" "ingress" "watermark" "peak" (usizeAsU64 ingress.peakReservedBytes),
        point2 "queue" "export" "watermark" "current" (usizeAsU64 pipeline.queuedBytes),
        point2 "queue" "export" "watermark" "peak" (usizeAsU64 pipeline.peakQueuedBytes),
        point2 "queue" "context_cache" "watermark" "current" context.bytes],
    counterMetric (name "agent.bridge.context.refresh.total" "agent.bridge.context.refresh")
      "Workspace context refresh operations by result." "\x7brefresh\x7d" observedNs
      [point1 "result" "queued" context.queued,
        point1 "result" "completed" context.completed,
        point1 "result" "failed" context.failed,
        point1 "result" "queue_full" context.queueFull,
        point1 "result" "circuit_open" context.circuitOpen,
        point1 "result" "snapshot_size" context.rejectedSnapshotSize],
    counterMetric (name "agent.bridge.export.attempts.total" "agent.bridge.export.attempts")
      "OTLP export attempts and batches with possible duplicate delivery." "\x7battempt\x7d" observedNs
      [point1 "result" "attempted" pipeline.attempts,
        point1 "result" "possible_duplicate_batch" pipeline.possibleDuplicateBatches],
    gaugeMetric "agent.bridge.connections" "Current and peak simultaneous ingress connections."
      "\x7bconnection\x7d" observedNs
      [point1 "watermark" "current" (usizeAsU64 ingress.activeConnections),
        point1 "watermark" "peak" (usizeAsU64 ingress.peakConnections)],
    gaugeMetric "agent.bridge.context.workers" "Current context refresh worker state."
      "\x7bworker\x7d" observedNs
      [point1 "state" "active" context.activeWorkers,
        point1 "state" "stuck" context.stuckWorkers]]

def extendFirst (metrics : List Metric) : List ScopeMetrics → List ScopeMetrics
  | [] => [{ scope := some instrumentationScope, metrics }]
  | scope :: scopes =>
      if scope.scope.any fun s => s.name = instrumentationScope.name then
        { scope with metrics := scope.metrics ++ metrics } :: scopes
      else scope :: extendFirst metrics scopes

/-- The metrics go to the scope of the bridge, in the first resource. -/
def appendBridgeMetrics (request : ExportMetricsServiceRequest) (observedNs : Nat)
    (readings : Readings) (genAiLatestExperimental : Bool) : ExportMetricsServiceRequest :=
  let metrics := bridgeMetrics observedNs readings genAiLatestExperimental
  match request.resourceMetrics with
  | [] => ⟨[{ scopeMetrics := extendFirst metrics [] }]⟩
  | resource :: resources =>
      ⟨{ resource with scopeMetrics := extendFirst metrics resource.scopeMetrics } :: resources⟩

/-! ## Lengths -/

theorem metricsLen_append (metrics others : List Metric) :
    metricsLen (metrics ++ others) = metricsLen metrics + metricsLen others := by
  simp [metricsLen]

/-- The bytes of the points with these labels, of which each has `timeLen` bytes of time. -/
def labelsLen (timeLen : Nat) (points : List (List (String × String))) : Nat :=
  (points.map fun labels => delimitedLen
    ((labels.map fun label => delimitedLen (encodedLen (kvString label.1 label.2))).sum +
      timeLen + 9)).sum

/-- The numbers of the points do not count. -/
theorem pointsLen_numberPoints (points : List Point) (observedNs : Nat) :
    pointsLen (numberPoints points observedNs) =
      labelsLen (fixed64Len observedNs) (points.map Point.labels) := by
  have each : ∀ point ∈ points, delimitedLen (encodedLen (NumberDataPoint.mk
      (point.labels.map fun label => kvString label.1 label.2) 0 observedNs
      (some (.asInt (min point.value (2 ^ 63 - 1) : Nat))))) =
        delimitedLen ((point.labels.map fun label =>
          delimitedLen (encodedLen (kvString label.1 label.2))).sum + fixed64Len observedNs + 9) := by
    intro point _
    simp [encodedLen, fixed64Len, Function.comp_def]
  simp only [pointsLen, numberPoints, labelsLen, List.map_map]
  exact congrArg List.sum (List.map_congr_left each)

theorem encodedLen_counterMetric (name description unit : String) (observedNs : Nat)
    (points : List Point) :
    encodedLen (counterMetric name description unit observedNs points) =
      stringLen name + stringLen description + stringLen unit +
        delimitedLen (labelsLen (fixed64Len observedNs) (points.map Point.labels) + 4) := by
  rw [← pointsLen_numberPoints]
  rfl

theorem encodedLen_gaugeMetric (name description unit : String) (observedNs : Nat)
    (points : List Point) :
    encodedLen (gaugeMetric name description unit observedNs points) =
      stringLen name + stringLen description + stringLen unit +
        delimitedLen (labelsLen (fixed64Len observedNs) (points.map Point.labels)) := by
  rw [← pointsLen_numberPoints]
  rfl

/-- The bytes of the metrics of the bridge.  Without a time they take 9 bytes less for each of
their 37 points. -/
def bridgeMetricsLen (observedNs : Nat) (genAiLatestExperimental : Bool) : Nat :=
  (if genAiLatestExperimental then 2346 else 2370) + if observedNs = 0 then 0 else 333

theorem metricsLen_bridgeMetrics (observedNs : Nat) (readings : Readings)
    (genAiLatestExperimental : Bool) :
    metricsLen (bridgeMetrics observedNs readings genAiLatestExperimental) =
      bridgeMetricsLen observedNs genAiLatestExperimental := by
  simp only [metricsLen, bridgeMetrics, List.map_cons, List.map_nil, encodedLen_counterMetric,
    encodedLen_gaugeMetric, point1, point2, bridgeMetricName, bridgeMetricsLen, fixed64Len]
  rcases Decidable.em (observedNs = 0) with timeless | timed
  · simp only [timeless, if_true]
    cases genAiLatestExperimental <;> decide +kernel
  · simp only [timed, if_false]
    cases genAiLatestExperimental <;> decide +kernel

/-- The bytes of a request of a resource and of some metrics in the scope of the bridge. -/
def metricsRequestLen (resourceLen metricsLen : Nat) : Nat :=
  delimitedLen (delimitedLen resourceLen +
    delimitedLen (delimitedLen (encodedLen instrumentationScope) + metricsLen))

/-- A request of some metrics in the scope of the bridge. -/
def metricsRequest (resource : Resource) (metrics : List Metric) : ExportMetricsServiceRequest :=
  ⟨[{ resource := some resource
      scopeMetrics := [{ scope := some instrumentationScope, metrics }] }]⟩

/-- The metrics of a request. -/
def ExportMetricsServiceRequest.metrics (request : ExportMetricsServiceRequest) : List Metric :=
  request.resourceMetrics.flatMap fun r => r.scopeMetrics.flatMap fun s => s.metrics

@[simp] theorem metrics_metricsRequest (resource : Resource) (metrics : List Metric) :
    (metricsRequest resource metrics).metrics = metrics := by
  simp [metricsRequest, ExportMetricsServiceRequest.metrics]

theorem buildMultiQuotaMetricsRequestOpts_eq (resource : Resource)
    (snapshots : List MetricsSnapshot) (emitLegacyAliases : Bool) :
    buildMultiQuotaMetricsRequestOpts resource snapshots emitLegacyAliases =
      metricsRequest resource (quotaMetrics snapshots emitLegacyAliases) := by
  unfold buildMultiQuotaMetricsRequestOpts quotaMetrics metricsRequest
  cases emitLegacyAliases with
  | true =>
      simp only [if_true, QuotaPass.metrics_legacyReset, QuotaPass.metrics_reset,
        QuotaPass.metrics_legacyRemaining, QuotaPass.metrics_bottleneck]
  | false =>
      simp [QuotaPass.metrics_reset, QuotaPass.metrics_bottleneck, remainingGauges, resetGauges]

theorem encodedLen_metricsRequest (resource : Resource) (metrics : List Metric) :
    encodedLen (metricsRequest resource metrics) =
      metricsRequestLen (encodedLen resource) (metricsLen metrics) := by
  simp [metricsRequest, metricsRequestLen, encodedLen, stringLen]

theorem appendBridgeMetrics_metricsRequest (resource : Resource) (metrics : List Metric)
    (observedNs : Nat) (readings : Readings) (genAiLatestExperimental : Bool) :
    appendBridgeMetrics (metricsRequest resource metrics) observedNs readings
        genAiLatestExperimental =
      metricsRequest resource
        (metrics ++ bridgeMetrics observedNs readings genAiLatestExperimental) := by
  simp [appendBridgeMetrics, metricsRequest, extendFirst]

end AgentOtelBridge
