import AgentOtelBridge.Daemon.MetricsRequest

/-!
# The size of metrics requests

The quota worker makes a request of its snapshots, and publishes it if it is within the limit
of a request.  The metrics task appends the metrics of the bridge to the request that is
published, or to one of no snapshots, and passes it to the exporter.  It does not check the
limit, and the exporter rejects what is beyond it.

The metrics of the bridge take a number of bytes that no counter changes.  So the requests of
a run are within the limit if and only if each pass of the task finds room for these bytes
(`exports_respectLimit_iff`).
-/

namespace AgentOtelBridge

open Exporter (maxRequestBytes OtlpExporter Codec ExportEnv ExportReport AttemptResult oversized)

/-! ## The configuration -/

/-- The host that a resource names. -/
structure Machine where
  hostname : String
  os : String

def semanticOsType (os : String) : String := if os = "macos" then "darwin" else os

def sdkIdentityKey (key : String) : Bool :=
  key ∈ ["telemetry.sdk.name", "telemetry.sdk.language", "telemetry.sdk.version",
    "telemetry.distro.name", "telemetry.distro.version"]

def upsertString (key value : String) : List KeyValue → List KeyValue
  | [] => [kvString key value]
  | kv :: attributes =>
      if kv.key = key then kvString key value :: attributes
      else kv :: upsertString key value attributes

def buildResourceWith (machine : Machine) (serviceName environment version instanceId : String)
    (extra : List (String × String)) : Resource :=
  let detected :=
    [kvString "service.name" serviceName, kvString "service.version" version,
      kvString "host.name" machine.hostname, kvString "os.type" (semanticOsType machine.os),
      kvString "telemetry.sdk.name" "agent-otel-bridge", kvString "telemetry.sdk.language" "rust",
      kvString "telemetry.sdk.version" version,
      kvString "telemetry.distro.name" "agent-otel-bridge",
      kvString "telemetry.distro.version" version] ++
    (if environment = "" then [] else [kvString "deployment.environment" environment]) ++
    (if instanceId = "" then [] else [kvString "service.instance.id" instanceId])
  ⟨extra.foldl (fun attributes attr =>
    if attr.2 = "" ∨ attr.1 = "service.name" ∨ sdkIdentityKey attr.1 then attributes
    else upsertString attr.1 attr.2 attributes) detected⟩

/-- `DaemonConfig`, as far as requests depend on it.  Durations are nanoseconds. -/
structure DaemonConfig where
  serviceName : String
  environment : String
  serviceVersion : String
  batchSize : Nat
  batchTimeout : Nat
  quotaInterval : Nat
  emitLegacyAliases : Bool
  genAiLatestExperimental : Bool
  resourceAttributes : List (String × String)
  serviceInstanceId : String

variable (machine : Machine)

namespace DaemonConfig

def resource (config : DaemonConfig) : Resource :=
  buildResourceWith machine config.serviceName config.environment config.serviceVersion
    config.serviceInstanceId config.resourceAttributes

def schemaUrl (config : DaemonConfig) : String :=
  if config.genAiLatestExperimental then "https://opentelemetry.io/schemas/1.41.0" else ""

/-- The checks of `run_with_diagnostics`. -/
def accepted (config : DaemonConfig) : Bool :=
  config.batchSize ≠ 0 ∧ config.batchSize ≤ 4096 ∧ config.batchTimeout ≠ 0 ∧
    config.quotaInterval ≠ 0 ∧
    encodedLen (buildTraceRequestWithSchema (config.resource machine) ([] : List Span)
      config.schemaUrl) < maxRequestBytes

end DaemonConfig

/-! ## The worker and the task -/

/-- What the worker and the task do, in any order: the worker takes snapshots, and the task
passes its loop, at a time and with what it reads of the daemon then. -/
inductive MetricsEvent where
  | update (snapshots : List MetricsSnapshot)
  | pass (observedNs : Nat) (readings : Readings)

namespace DaemonConfig

variable (config : DaemonConfig)

/-- An update of the worker, which leaves what is published if the request is too long. -/
def publish (watch : Option ExportMetricsServiceRequest) (snapshots : List MetricsSnapshot) :
    Option ExportMetricsServiceRequest :=
  let request := buildMultiQuotaMetricsRequestOpts (config.resource machine) snapshots
    config.emitLegacyAliases
  if encodedLen request ≤ maxRequestBytes then some request else watch

/-- The request that the task starts from. -/
def base (watch : Option ExportMetricsServiceRequest) : ExportMetricsServiceRequest :=
  watch.getD (buildMultiQuotaMetricsRequestOpts (config.resource machine) [] false)

/-- The requests that the task passes to the exporter, from what is published. -/
def exports : Option ExportMetricsServiceRequest → List MetricsEvent →
    List ExportMetricsServiceRequest
  | _, [] => []
  | watch, .update snapshots :: events => exports (config.publish machine watch snapshots) events
  | watch, .pass observedNs readings :: events =>
      appendBridgeMetrics (config.base machine watch) observedNs readings
          config.genAiLatestExperimental :: exports watch events

end DaemonConfig

/-- The points of a metric. -/
def Metric.points (metric : Metric) : Nat :=
  match metric.data with
  | some (.gauge points) => points.length
  | some (.sum points _ _) => points.length
  | none => 0

def ExportMetricsServiceRequest.points (request : ExportMetricsServiceRequest) : Nat :=
  (request.resourceMetrics.flatMap fun r =>
    r.scopeMetrics.flatMap fun s => s.metrics.map Metric.points).sum

/-- `export_metrics_until`. -/
def exportMetricsUntil (exporter : OtlpExporter) (codec : Codec) (env : ExportEnv)
    (request : ExportMetricsServiceRequest) (deadline : Nat) : ExportReport × List AttemptResult :=
  exporter.export codec env (encodedLen request) exporter.metrics .metrics request.points deadline

/-- The request is within the limit, and no exporter discards it for its size. -/
structure RespectsLimit (request : ExportMetricsServiceRequest) : Prop where
  bounded : encodedLen request ≤ maxRequestBytes
  kept : ∀ (exporter : OtlpExporter) (codec : Codec) (env : ExportEnv) (deadline : Nat),
    exporter.metrics.disabledReason ≠ some "request_size" →
      (exportMetricsUntil exporter codec env request deadline).1.outcome ≠ oversized

theorem respectsLimit_iff (request : ExportMetricsServiceRequest) :
    RespectsLimit request ↔ encodedLen request ≤ maxRequestBytes := by
  constructor
  · intro respects
    exact respects.bounded
  · intro bounded
    exact ⟨bounded, fun exporter codec env deadline enabled =>
      exporter.export_ne_oversized codec env bounded enabled .metrics request.points deadline⟩

/-! ## Room -/

/-- A field of at most 1 MiB has four bytes of tag and length at the limit. -/
theorem delimitedLen_le_iff (n : Nat) :
    delimitedLen n ≤ maxRequestBytes ↔ n ≤ maxRequestBytes - 4 := by
  have wide : 2 ^ 14 ≤ n → n < 2 ^ 21 → varintLen n = 3 := by
    intro lower upper
    have above : 14 ≤ Nat.log2 n := (Nat.le_log2 (by omega)).mpr lower
    have below : Nat.log2 n < 21 := (Nat.log2_lt (by omega)).mpr upper
    simp only [varintLen]
    omega
  have short : n < 2 ^ 14 → varintLen n ≤ 2 := by
    intro upper
    rcases Nat.eq_zero_or_pos n with zero | positive
    · subst zero
      decide
    · have below : Nat.log2 n < 14 := (Nat.log2_lt (by omega)).mpr upper
      simp only [varintLen]
      omega
  have limit : maxRequestBytes = 2 ^ 20 := rfl
  simp only [delimitedLen, limit]
  by_cases small : n < 2 ^ 14
  · have := short small
    omega
  · by_cases large : n < 2 ^ 21
    · have := wide (by omega) large
      omega
    · omega

section

variable (config : DaemonConfig)

/-- There is room for the metrics of the bridge: with the resource, the published metrics and
the 28 bytes that name the scope they leave the four bytes of the outermost field. -/
def HasRoom (watch : Option ExportMetricsServiceRequest) (observedNs : Nat) : Prop :=
  delimitedLen (encodedLen (config.resource machine)) +
    delimitedLen (28 + metricsLen (config.base machine watch).metrics +
      bridgeMetricsLen observedNs config.genAiLatestExperimental) ≤ maxRequestBytes - 4

/-- Each pass of a run finds room. -/
def RunHasRoom : Option ExportMetricsServiceRequest → List MetricsEvent → Prop
  | _, [] => True
  | watch, .update snapshots :: events =>
      RunHasRoom (config.publish machine watch snapshots) events
  | watch, .pass observedNs _ :: events =>
      HasRoom machine config watch observedNs ∧ RunHasRoom watch events

/-- What is published is a request of the resource of the configuration. -/
def Published (watch : Option ExportMetricsServiceRequest) : Prop :=
  ∀ request, watch = some request →
    ∃ metrics, request = metricsRequest (config.resource machine) metrics

theorem published_none : Published machine config none := by
  intro request found
  cases found

theorem published_publish {watch : Option ExportMetricsServiceRequest}
    (published : Published machine config watch) (snapshots : List MetricsSnapshot) :
    Published machine config (config.publish machine watch snapshots) := by
  intro request found
  simp only [DaemonConfig.publish] at found
  split at found
  · rw [buildMultiQuotaMetricsRequestOpts_eq] at found
    exact ⟨quotaMetrics snapshots config.emitLegacyAliases, (Option.some.inj found).symm⟩
  · exact published request found

theorem base_eq {watch : Option ExportMetricsServiceRequest}
    (published : Published machine config watch) :
    config.base machine watch =
      metricsRequest (config.resource machine) (config.base machine watch).metrics := by
  cases watch with
  | none => rfl
  | some request =>
      obtain ⟨metrics, rfl⟩ := published request rfl
      simp [DaemonConfig.base]

/-- A pass exports a request within the limit if and only if it finds room. -/
theorem pass_respectsLimit_iff {watch : Option ExportMetricsServiceRequest}
    (published : Published machine config watch) (observedNs : Nat) (readings : Readings) :
    RespectsLimit (appendBridgeMetrics (config.base machine watch) observedNs readings
        config.genAiLatestExperimental) ↔ HasRoom machine config watch observedNs := by
  have scope : delimitedLen (encodedLen instrumentationScope) = 28 := by decide
  rw [respectsLimit_iff, base_eq machine config published, appendBridgeMetrics_metricsRequest,
    encodedLen_metricsRequest, metricsLen_append, metricsLen_bridgeMetrics, metricsRequestLen,
    delimitedLen_le_iff, scope, ← Nat.add_assoc]
  rfl

theorem exports_respectLimit {watch : Option ExportMetricsServiceRequest}
    (published : Published machine config watch) (events : List MetricsEvent) :
    (∀ request ∈ config.exports machine watch events, RespectsLimit request) ↔
      RunHasRoom machine config watch events := by
  induction events generalizing watch with
  | nil => simp [DaemonConfig.exports, RunHasRoom]
  | cons event events ih =>
      cases event with
      | update snapshots =>
          exact ih (published_publish machine config published snapshots)
      | pass observedNs readings =>
          simp only [DaemonConfig.exports, RunHasRoom, List.forall_mem_cons]
          rw [pass_respectsLimit_iff machine config published observedNs readings, ih published]

/-- **The limit of metrics requests.**  The requests of a run are within the limit, and none is
discarded for its size, if and only if each pass of the task finds room. -/
theorem exports_respectLimit_iff (events : List MetricsEvent) :
    (∀ request ∈ config.exports machine none events, RespectsLimit request) ↔
      RunHasRoom machine config none events :=
  exports_respectLimit machine config (published_none machine config) events

end

/-! ## Drop-ins with long names -/

/-- The configuration of an empty environment. -/
def defaultConfig : DaemonConfig where
  serviceName := "agent-otel-bridge"
  environment := ""
  serviceVersion := "0.9.0"
  batchSize := 50
  batchTimeout := 200000000
  quotaInterval := 60000000000
  emitLegacyAliases := false
  genAiLatestExperimental := false
  resourceAttributes := []
  serviceInstanceId := "4a1a2b5c-0d2e-4f6a-8b7c-9d0e1f2a3b4c"

def localhost : Machine := ⟨"localhost", "linux"⟩

/-- A name of `n` letters. -/
def longName (n : Nat) : String := String.ofList (List.replicate n 'b')

@[simp] theorem utf8ByteSize_longName (n : Nat) : (longName n).utf8ByteSize = n := by
  induction n with
  | zero => rfl
  | succ n ih =>
      have grown : longName (n + 1) = (longName n).push 'b' := by
        rw [longName, List.replicate_succ', String.ofList_append]
        rfl
      rw [grown, String.utf8ByteSize_push, ih]
      rfl

/-- A snapshot of a quota file whose bucket has a name of `n` letters. -/
def longSnapshot (n : Nat) : MetricsSnapshot :=
  ⟨.one, .finite false 3600, 1, longName n, "gemini"⟩

/-- Eight quota files of less than 65536 bytes. -/
def longSnapshots : List MetricsSnapshot :=
  [65250, 65251, 65252, 65253, 65254, 65255, 65256, 65257].map longSnapshot

/-- The bytes of a quota gauge whose bucket has a name of `n` bytes. -/
def quotaGaugeLen (name unit group : String) (n : Nat) : Nat :=
  stringLen name + stringLen unit + delimitedLen (delimitedLen
    (delimitedLen (stringLen "bucket" + delimitedLen (delimitedLen n)) +
      delimitedLen (encodedLen (kvString "group" group)) +
      delimitedLen (encodedLen (kvString "gen_ai.provider.name" group)) + 18))

@[simp] theorem stringLen_empty : stringLen "" = 0 := rfl

theorem encodedLen_quotaGauge (name unit bucket group : String) (value : F64) :
    encodedLen (quotaGauge name unit value 1 bucket group) =
      quotaGaugeLen name unit group bucket.utf8ByteSize := by
  simp [quotaGauge, quotaGaugeLen, encodedLen, pointsLen, kvString, fixed64Len, Nat.add_assoc]

theorem hasRemaining_longSnapshot (n : Nat) : (longSnapshot n).hasRemaining = true := by
  change (F64.one.isFinite && F64.zero.le .one && F64.one.le .one) = true
  decide +kernel

theorem hasReset_longSnapshot (n : Nat) : (longSnapshot n).hasReset = true := by
  change ((F64.finite false 3600).isFinite && F64.zero.le (.finite false 3600)) = true
  decide +kernel

theorem metricsLen_longSnapshots : metricsLen (quotaMetrics longSnapshots false) = 1046383 := by
  simp only [metricsLen, quotaMetrics, longSnapshots, List.map_cons, List.map_nil, remainingGauges,
    resetGauges, bottleneckGauge, List.filter_cons, List.filter_nil, hasRemaining_longSnapshot,
    hasReset_longSnapshot, if_true, Bool.false_eq_true, if_false]
  simp [longSnapshot, MetricsSnapshot.gauge, encodedLen_quotaGauge]
  decide +kernel

/-- The worker publishes the request of the snapshots, since it is within the limit. -/
theorem publish_longSnapshots :
    defaultConfig.publish localhost none longSnapshots =
      some (metricsRequest (defaultConfig.resource localhost) (quotaMetrics longSnapshots false)) := by
  have fits : encodedLen (metricsRequest (defaultConfig.resource localhost)
      (quotaMetrics longSnapshots false)) ≤ maxRequestBytes := by
    rw [encodedLen_metricsRequest, metricsLen_longSnapshots]
    decide +kernel
  rw [DaemonConfig.publish, buildMultiQuotaMetricsRequestOpts_eq]
  exact if_pos fits

/-- The daemon accepts the configuration, and the next pass of the task exports a request beyond
the limit. -/
theorem exports_longSnapshots :
    defaultConfig.accepted localhost = true ∧
      ¬ ∀ request ∈ defaultConfig.exports localhost none
          [.update longSnapshots, .pass 1 .zero],
        RespectsLimit request := by
  constructor
  · decide +kernel
  · intro respects
    have beyond : ¬ HasRoom localhost defaultConfig
        (defaultConfig.publish localhost none longSnapshots) 1 := by
      rw [publish_longSnapshots]
      simp only [HasRoom, DaemonConfig.base, Option.getD_some, metrics_metricsRequest,
        metricsLen_longSnapshots]
      decide +kernel
    have room := (exports_respectLimit localhost defaultConfig
      (published_none localhost defaultConfig) _).mp respects
    exact beyond room.1

end AgentOtelBridge
