import AgentOtelBridge.Daemon.Baggage
import AgentOtelBridge.Daemon.MetricsSize

/-!
# The configuration

The variables of the environment, and what the daemon makes of them: the targets of the two
signals with their headers, and the identity and the attributes of the resource.  A variable of
a signal comes before the general one.

The headers of a signal are those of the general list, with those of its own list in their
place.
-/

namespace AgentOtelBridge

open Exporter (SignalExportConfig)

/-- The variables of the environment. -/
abbrev Vars := String → Option String

def nonEmpty (value : Option String) : Option String :=
  value.bind fun raw => let trimmed := Text.trim raw; if trimmed = "" then none else some trimmed

def eqIgnoreAsciiCase (s t : String) : Bool := Text.asciiLower s = Text.asciiLower t

/-! ## Headers -/

/-- A byte of a header's name. -/
def headerNameByte (byte : UInt8) : Bool :=
  (48 ≤ byte ∧ byte ≤ 57) ∨ (97 ≤ byte ∧ byte ≤ 122) ∨ (65 ≤ byte ∧ byte ≤ 90) ∨
    byte ∈ Text.asBytes "!#$%&'*+-.^_`|~"

def validHeaderName (name : String) : Bool := name ≠ "" && (Text.asBytes name).all headerNameByte

def validHeaderValue (value : String) : Bool :=
  (Text.asBytes value).all fun byte => byte = 9 ∨ 32 ≤ byte ∧ byte < 127

def parseHeaders (raw : String) : List (String × String) :=
  (splitBaggage raw).filter fun header => validHeaderName header.1 && validHeaderValue header.2

/-- A specific header takes the place of the first one of its name. -/
def mergeHeader (header : String × String) : List (String × String) → List (String × String)
  | [] => [header]
  | existing :: merged =>
      if eqIgnoreAsciiCase existing.1 header.1 then header :: merged
      else existing :: mergeHeader header merged

def mergeHeaders (general specific : List (String × String)) : List (String × String) :=
  specific.foldl (fun merged header => mergeHeader header merged) general

/-! ## Signals -/

inductive CompressionChoice where
  | none
  | gzip
  | unsupported
deriving DecidableEq

def parseCompression (value : Option String) : CompressionChoice :=
  match nonEmpty value with
  | .none => .none
  | some v =>
      if eqIgnoreAsciiCase v "none" then .none
      else if eqIgnoreAsciiCase v "gzip" then .gzip
      else .unsupported

def protocolSupported (value : Option String) : Bool :=
  (nonEmpty value).all fun v => eqIgnoreAsciiCase v "http/protobuf"

variable (get : Vars)

def signalOverride (specific general : String) : Option String :=
  match nonEmpty (get specific) with
  | some value => some value
  | none => nonEmpty (get general)

/-- The name of a variable of a signal. -/
def signalVar (signal what : String) : String := "OTEL_EXPORTER_OTLP_" ++ signal ++ "_" ++ what

/-- In nanoseconds. -/
def parseTimeout (signal : String) : Nat :=
  let general := nonEmpty (get "OTEL_EXPORTER_OTLP_TIMEOUT")
  let raw := match get (signalVar signal "TIMEOUT") with
    | some value => if Text.trim value = "" then general else some value
    | none => general
  ((raw.bind fun value => Text.parseUnsigned 64 (Text.trim value)).getD 5000) * 1000000

def signalUrl (endpoint : Option String) (base suffix : String) : String :=
  match endpoint with
  | some endpoint => endpoint
  | none =>
      let stripped := if base.toList.getLast? = some '/' then .ofList base.toList.dropLast else base
      stripped ++ "/" ++ suffix

def signalHeaders (signal : String) : List (String × String) :=
  mergeHeaders (parseHeaders ((get "OTEL_EXPORTER_OTLP_HEADERS").getD ""))
    (parseHeaders ((get (signalVar signal "HEADERS")).getD ""))

def parseSignal (baseEndpoint signal suffix : String) : SignalExportConfig :=
  let compression := parseCompression
    (signalOverride get (signalVar signal "COMPRESSION") "OTEL_EXPORTER_OTLP_COMPRESSION")
  let protocolOk := protocolSupported
    (signalOverride get (signalVar signal "PROTOCOL") "OTEL_EXPORTER_OTLP_PROTOCOL")
  let disabledReason :=
    if protocolOk = false then some "unsupported_protocol"
    else if compression = .unsupported then some "unsupported_compression"
    else none
  { url := signalUrl (nonEmpty (get (signalVar signal "ENDPOINT"))) baseEndpoint suffix
    headers := signalHeaders get signal
    gzip := compression = .gzip && disabledReason.isNone
    disabledReason
    timeout := parseTimeout get signal
    certificate :=
      signalOverride get (signalVar signal "CERTIFICATE") "OTEL_EXPORTER_OTLP_CERTIFICATE" }

/-! ## The daemon -/

structure ParsedOtlpEnv where
  baseEndpoint : String
  serviceName : String
  serviceVersion : String
  environment : String
  resourceAttributes : List (String × String)
  traces : SignalExportConfig
  metrics : SignalExportConfig
  sdkDisabled : Bool

/-- The version of the package. -/
def packageVersion : String := "0.9.0"

def parseOtlpEnv : ParsedOtlpEnv :=
  let baseEndpoint := (nonEmpty (get "OTEL_EXPORTER_OTLP_ENDPOINT")).getD "http://127.0.0.1:4318"
  let resourceAttributes := ((get "OTEL_RESOURCE_ATTRIBUTES").map splitBaggage).getD []
  let environment := ((resourceAttributes.reverse.find? fun attr =>
    attr.1 = "deployment.environment").filter fun attr => attr.2 ≠ "").map (·.2)
  { baseEndpoint
    serviceName := (nonEmpty (get "OTEL_SERVICE_NAME")).getD "agent-otel-bridge"
    serviceVersion := (nonEmpty (get "OTEL_SERVICE_VERSION")).getD packageVersion
    environment := environment.getD ""
    resourceAttributes
    traces := parseSignal get baseEndpoint "TRACES" "v1/traces"
    metrics := parseSignal get baseEndpoint "METRICS" "v1/metrics"
    sdkDisabled := ((get "OTEL_SDK_DISABLED").map fun value =>
      eqIgnoreAsciiCase (Text.trim value) "true").getD false }

def semconvOptInGenAiLatest : Bool :=
  (get "OTEL_SEMCONV_STABILITY_OPT_IN").any fun raw =>
    (raw.toList.splitOn ',').any fun token =>
      Text.trimChars token = "gen_ai_latest_experimental".toList

/-- A number of the environment, or its default. -/
def numberVar (name : String) (otherwise : Nat) : Nat :=
  ((get name).bind (Text.parseUnsigned 64)).getD otherwise

/-- The configuration with an instance id that was drawn. -/
def DaemonConfig.fromVars (newInstanceId : String) : DaemonConfig :=
  let otlp := parseOtlpEnv get
  { serviceName := otlp.serviceName
    environment := otlp.environment
    serviceVersion := otlp.serviceVersion
    batchSize := numberVar get "AGENT_OTEL_BATCH_SIZE" 50
    batchTimeout := numberVar get "AGENT_OTEL_BATCH_TIMEOUT_MS" 200 * 1000000
    quotaInterval := numberVar get "AGENT_OTEL_QUOTA_INTERVAL_SECS" 60 * 1000000000
    emitLegacyAliases :=
      ((get "AGENT_OTEL_LEGACY_ATTRIBUTES").or (get "AGENT_OTEL_EMIT_AGY_ALIASES")).any fun v =>
        v = "1" || eqIgnoreAsciiCase v "true"
    genAiLatestExperimental := semconvOptInGenAiLatest get
    resourceAttributes := otlp.resourceAttributes
    serviceInstanceId := newInstanceId }

/-- The host, as the environment names it. -/
def Machine.fromVars (os : String) : Machine where
  hostname := ((get "COMPUTERNAME").or (get "HOSTNAME")).getD "localhost"
  os

end AgentOtelBridge
