import TelemetryPlatform.Library.Json

/-!
# The requests of the load generator

`scripts/otlp_e2e_loadgen.py`, from the synthetic events to the requests of a mode. What
the protobuf and hashing libraries compute is `Wire`; the numbers and bytes that are
drawn at random are arguments. Texts with lone surrogates, which the protobuf library
refuses, do not occur among the events the generator plans.
-/

namespace LoadGen

open Python

/-- One synthetic usage event, destined for one log record. -/
structure EventSpec where
  tool : Str
  eventType : Str
  payload : Str
  timestamp : Str
deriving DecidableEq

/-- An encoded request with the records it carries. -/
structure RequestPlan where
  label : Str
  path : Str
  contentType : Str
  body : Bytes
  specs : List EventSpec
  expectedStatuses : List Int

inductive Encoding where
  | protobuf
  | json
deriving DecidableEq

inductive Mode where
  | happy
  | volume
  | variety
  | structuredEvents
  | structuredMetrics
  | oversize
  | badContentType
  | malformed
  | wrongSignal
  | grpcProbe
  | wafTrigger
  | rateBurst
deriving DecidableEq

inductive Variety where
  | small
  | nested
  | unicode
  | controlChars
  | large
deriving DecidableEq

/-- The encoders of the libraries, and the hexadecimal SHA-256 of a text in UTF-8. -/
structure Wire where
  /-- An `ExportLogsServiceRequest` whose records have these bodies. -/
  logs : Encoding → List Str → Bytes
  /-- The requests of the two structured modes, for a timestamp and a run id. -/
  structuredEvents : Encoding → Str → Str → Bytes
  structuredMetrics : Encoding → Str → Str → Bytes
  sha256 : Str → Str

def logsPath : Str := str "/v1/logs"
def metricsPath : Str := str "/v1/metrics"
def tracesPath : Str := str "/v1/traces"
def toolValue : Str := str "e2e-smoke"
def maxBodyBytes : Int := 4194304
def wafRateLimitPer5Min : Int := 2000

def eventTypes : List Str :=
  [str "command_execution", str "command_error", str "session_start", str "session_end",
    str "feature_usage", str "perf_sample"]

def payloadVarieties : List Variety := [.small, .nested, .unicode, .controlChars, .large]

def structuredMetricNames : List Str :=
  [str "synthetic.e2e.counter_one", str "synthetic.e2e.counter_two"]

def contentTypeOf : Encoding → Str
  | .protobuf => str "application/x-protobuf"
  | .json => str "application/json"

variable (rt : Runtime)

/-- `separators=(",", ":")` with the default escaping. -/
def asciiStyle : JsonStyle := ⟨true, str ",", str ":"⟩

/-- The JSON body of a record. -/
def buildRecordBody (spec : EventSpec) : Str :=
  rt.render .compact (.obj [(str "timestamp", .str spec.timestamp), (str "tool", .str spec.tool),
    (str "event_type", .str spec.eventType), (str "payload", .str spec.payload)])

/-- The decimal numeral of a natural number. -/
def numeral (n : Nat) : Str := (Nat.toDigits 10 n).map .char

/-- `generate_payload`, for the number that is drawn. -/
def generatePayload (variety : Variety) (nonce largeBytes : Nat) : Str :=
  match variety with
  | .small => rt.render asciiStyle (.obj [(str "k", .str (str "v")), (str "n", .int nonce)])
  | .nested =>
      rt.render asciiStyle (.obj [
        (str "args", .arr [.str (str "--flag"), .str (str "value"), .str (numeral nonce)]),
        (str "meta", .obj [(str "duration_ms", .int (nonce % 5000 : Nat)),
          (str "nested", .obj [(str "depth", .int 3), (str "ok", .bool true)])]),
        (str "tags", .arr [.obj [(str "k", .str (str "env")), (str "v", .str (str "synthetic"))],
          .obj [(str "k", .str (str "n")), (str "v", .int nonce)]])])
  | .unicode =>
      rt.render .compact (.obj [(str "msg", .str (str "héllo-世界-" ++ numeral nonce)),
        (str "emoji", .str (str "🚀📈")), (str "rtl", .str (str "مرحبا"))])
  | .controlChars =>
      rt.render asciiStyle (.obj [(str "raw", .str (str "tab\tnewline\nnull\x00bell\x07end")),
        (str "n", .int nonce)])
  | .large =>
      let unit := List.replicate 512 (.char 'x') ++ numeral nonce
      let filler := (List.replicate (max 1 (largeBytes / 515)) unit).flatten
      rt.render asciiStyle (.obj [(str "blob", .str (filler.take largeBytes)),
        (str "n", .int nonce)])

/-- The payload with the run id as a further key. -/
def embedRunId (payloadJson runId : Str) : Except Exc Str := do
  match ← rt.loads payloadJson with
  | .obj entries => rt.dumps .compact (.obj (dictSet entries (str "run_id") (.str runId)))
  | _ => throw .typeError

/-- The events of a data mode; `nonce` numbers the draws. -/
def planEvents (mode : Mode) (count : Int) (tool runId timestamp : Str) (nonce : Nat → Nat) :
    Except Exc (List EventSpec) :=
  (List.range count.toNat).mapM fun i => do
    let payload :=
      if mode = .variety then
        generatePayload rt ((payloadVarieties[i % 5]?).getD .small) (nonce i) (64 * 1024)
      else generatePayload rt .small (nonce i) 0
    return ⟨tool, (eventTypes[i % 6]?).getD [], ← embedRunId rt payload runId, timestamp⟩

variable (wire : Wire)

/-- `encode_request(build_export_request(specs), encoding)`. -/
def encodeSpecs (encoding : Encoding) (specs : List EventSpec) : Bytes :=
  wire.logs encoding (specs.map (buildRecordBody rt))

/-- The request of a batch of events. -/
def batchPlan (encoding : Encoding) (index : Nat) (specs : List EventSpec) : RequestPlan where
  label := str "logs-batch-" ++ numeral index
  path := logsPath
  contentType := contentTypeOf encoding
  body := encodeSpecs rt wire encoding specs
  specs := specs
  expectedStatuses := [200]

/-- The body of the loop of `chunk_into_requests`; the state is `plans` and `current`. -/
def chunkStep (encoding : Encoding) (maxBytes : Int)
    (state : List RequestPlan × List EventSpec) (spec : EventSpec) :
    List RequestPlan × List EventSpec :=
  let candidate := state.2 ++ [spec]
  if maxBytes < (encodeSpecs rt wire encoding candidate).length ∧ state.2 ≠ [] then
    (state.1 ++ [batchPlan rt wire encoding state.1.length state.2], [spec])
  else (state.1, candidate)

def chunkIntoRequests (specs : List EventSpec) (encoding : Encoding) (maxBytes : Int) :
    List RequestPlan :=
  let (plans, current) := specs.foldl (chunkStep rt wire encoding maxBytes) ([], [])
  if current ≠ [] then plans ++ [batchPlan rt wire encoding plans.length current] else plans

/-- The two structured log records. -/
def buildStructuredEventsRequest (timestamp runId : Str) (encoding : Encoding) : RequestPlan :=
  let common (eventName : Str) : List (Str × rt.Value) :=
    [(str "event.name", .str eventName), (str "event.timestamp", .str timestamp),
      (str "run_id", .str runId)]
  let specOf (eventName : Str) (attrs : List (Str × rt.Value)) : EventSpec :=
    ⟨toolValue, eventName, rt.render .compact (.obj (attrs ++ common eventName)), timestamp⟩
  { label := str "structured-events-batch"
    path := logsPath
    contentType := contentTypeOf encoding
    body := wire.structuredEvents encoding timestamp runId
    specs := [
      specOf (str "plugin_loaded") [(str "plugin.name", .str (str "e2e-smoke-plugin")),
        (str "marketplace.name", .str (str "e2e-smoke-marketplace")),
        (str "plugin.scope", .str (str "user-local")),
        (str "enabled_via", .str (str "user-install")), (str "session.id", .str runId),
        (str "terminal.type", .str (str "e2e-harness"))],
      specOf (str "mcp_server_connection") [(str "server_name", .str (str "e2e-smoke-server")),
        (str "transport_type", .str (str "http")), (str "server_scope", .str (str "user")),
        (str "status", .str (str "connected")), (str "is_plugin", .bool false),
        (str "session.id", .str runId)]]
    expectedStatuses := [200] }

/-- The two sums of the metrics route. -/
def buildStructuredMetricsRequest (timestamp runId : Str) (encoding : Encoding) : RequestPlan where
  label := str "structured-metrics-batch"
  path := metricsPath
  contentType := contentTypeOf encoding
  body := wire.structuredMetrics encoding timestamp runId
  specs := structuredMetricNames.mapIdx fun index metricName =>
    ⟨toolValue, metricName, rt.render .compact (.obj [(str "session.id", .str runId),
      (str "run_id", .str runId), (str "terminal.type", .str (str "e2e-harness")),
      (str "synthetic_marker", .str (str "e2e-smoke-metric-" ++ numeral (index + 1))),
      (str "value", .int 1), (str "otel_signal", .str (str "metric"))]), timestamp⟩
  expectedStatuses := [200]

/-- A request about one record, which is not counted. -/
def probePlan (label contentType : Str) (encoding : Encoding) (spec : EventSpec)
    (expectedStatuses : List Int) : RequestPlan where
  label := label
  path := logsPath
  contentType := contentType
  body := encodeSpecs rt wire encoding [spec]
  specs := []
  expectedStatuses := expectedStatuses

def buildOversizeRequest (marker : Str) (encoding : Encoding) (timestamp : Str) (nonce : Nat) :
    RequestPlan :=
  probePlan rt wire (str "oversize") (contentTypeOf encoding) encoding
    ⟨marker, str "perf_sample", generatePayload rt .large nonce (4194304 + 256 * 1024), timestamp⟩
    [413]

def buildBadContentTypeRequest (marker : Str) (encoding : Encoding) (timestamp : Str)
    (nonce : Nat) : RequestPlan :=
  probePlan rt wire (str "bad-content-type") (str "text/plain") encoding
    ⟨marker, str "session_start", generatePayload rt .small nonce 0, timestamp⟩ [415, 400]

/-- The bytes after the four that no message starts with are drawn. -/
def buildMalformedRequest (encoding : Encoding) (drawn : Bytes) : RequestPlan where
  label := str "malformed"
  path := logsPath
  contentType := contentTypeOf encoding
  body :=
    match encoding with
    | .json => "\x7b\"resourceLogs\": [ this is not valid json".toUTF8.toList
    | .protobuf => [0xFF, 0xFE, 0xFD, 0xFC] ++ drawn
  specs := []
  expectedStatuses := [400]

def buildWrongSignalRequests (encoding : Encoding) : List RequestPlan :=
  [{ label := str "wrong-signal-traces"
     path := tracesPath
     contentType := contentTypeOf encoding
     body := encodeSpecs rt wire encoding []
     specs := []
     expectedStatuses := [404] }]

def buildWafTriggerRequest (marker : Str) (encoding : Encoding) (timestamp : Str) : RequestPlan :=
  let attack := str ("' OR 1=1;-- <script>alert(document.cookie)</script> " ++
    "UNION SELECT * FROM users")
  probePlan rt wire (str "waf-trigger") (contentTypeOf encoding) encoding
    ⟨marker, str "command_execution", rt.render asciiStyle (.obj [(str "injection", .str attack)]),
      timestamp⟩ [403]

def buildRateBurstRequests (marker : Str) (encoding : Encoding) (timestamp : Str) (count : Int)
    (nonce : Nat → Nat) : List RequestPlan :=
  (List.range count.toNat).map fun i =>
    probePlan rt wire (str "rate-burst-" ++ numeral i) (contentTypeOf encoding) encoding
      ⟨marker, str "feature_usage", generatePayload rt .small (nonce i) 0, timestamp⟩
      [200, 403, 429]

end LoadGen
