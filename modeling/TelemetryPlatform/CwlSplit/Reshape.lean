import TelemetryPlatform.Library.Json
import TelemetryPlatform.Library.Numeral
import TelemetryPlatform.Library.Text
import TelemetryPlatform.Library.Timestamp

/-!
# Reshaping a log message

The pure part of `lambda/cwl_split/index.py`: the classifier that turns one
`logEvents[].message` into the byte records that are re-ingested for it. A
message passes through unchanged unless it is positively a structured OTLP record
or an EMF metrics event.

The functions take the text of the current time as `now`. The source reads the
clock at most once per message, and only where no timestamp was found.
-/

namespace CwlSplit

open Python

/-- The configuration the module reads from its environment. -/
structure Config where
  deliveryStreamName : Str
  reingestMaxAttempts : Nat
  serviceToolMap : List (Str × Str)

/--
An attribute block as `_to_map` returns it. Of the keys that are not strings only
their presence matters: `_norm` raises on each of them.
-/
structure AttributeMap (rt : Runtime) where
  entries : List (Str × rt.Value)
  otherKeys : Bool

namespace AttributeMap

variable {rt : Runtime}

/-- `flat[key] = value`. -/
def insert (flat : AttributeMap rt) (key value : rt.Value) : Except Exc (AttributeMap rt) :=
  match key with
  | .str key => .ok { flat with entries := dictSet flat.entries key value }
  | .arr _ | .obj _ => .error .typeError
  | .null | .bool _ | .int _ | .float _ => .ok { flat with otherKeys := true }

def getD (flat : AttributeMap rt) (key : String) (default : rt.Value) : rt.Value :=
  (dictGet? flat.entries (str key)).getD default

end AttributeMap

variable (rt : Runtime)

/-- `isinstance(item, dict) and "key" in item`, and the pair the item stands for. -/
def keyValue? (item : rt.Value) : Option (rt.Value × rt.Value) :=
  match item with
  | .obj entries =>
      (dictGet? entries (str "key")).map fun key =>
        match dictGet? entries (str "value") with
        | some (.obj ((_, first) :: _)) => (key, first)
        | some raw => (key, raw)
        | none => (key, .null)
  | _ => none

def toMap (value : rt.Value) : Except Exc (AttributeMap rt) :=
  match value with
  | .obj entries => .ok ⟨entries, false⟩
  | .arr items =>
      items.foldlM (fun flat item =>
        match keyValue? rt item with
        | some (key, value) => flat.insert key value
        | none => .ok flat) ⟨[], false⟩
  | _ => .ok ⟨[], false⟩

def norm (key : Str) : Str := replaceChr key (.char '.') (.char '_')

def emfResourceKeys : List Str :=
  ["service.name", "service.version", "host.arch", "host.name", "os.type", "os.version",
    "os.description"].map str

def isEmfResourceKey (key : Str) : Bool :=
  emfResourceKeys.contains key || (str "telemetry.sdk.").isPrefixOf key

/-- `isinstance(value, (str, int, float))`; a `bool` is an `int`. -/
def isNumberOrText : rt.Value → Bool
  | .str _ | .int _ | .float _ | .bool _ => true
  | .null | .arr _ | .obj _ => false

/-- `int(value)` of a string or a number. -/
def intOf : rt.Value → Except Exc Int
  | .str text => rt.intOfStr text
  | .int value => .ok value
  | .bool value => .ok value.toNat
  | .float value => rt.floatToInt value
  | .null | .arr _ | .obj _ => .error .typeError

/-- `a or b`. -/
def orElse (first second : rt.Value) : rt.Value := if rt.truth first then first else second

/-- The keys under which an OTLP log record may carry its time. -/
def timestampKeys : List String :=
  ["timeUnixNano", "observedTimeUnixNano", "time_unix_nano", "time"]

def recordTimestampIso (obj : List (Str × rt.Value)) : Except Exc (Option (List Char)) :=
  go timestampKeys
where
  go : List String → Except Exc (Option (List Char))
    | [] => .ok none
    | key :: rest =>
        let raw := (dictGet? obj (str key)).getD .null
        if !isNumberOrText rt raw then go rest
        else
          match intOf rt raw with
          | .ok nanos => (isoUtc nanos 1000000000).map some
          | .error error => if error.isValueError then go rest else .error error

/-- One `{timestamp, tool, event_type, payload}` row as UTF-8 text. -/
def canonicalRow (timestamp tool eventType : Str) (payload : rt.Value) : Except Exc Bytes := do
  let text ← rt.dumps .compact payload
  let line ← rt.dumps .compact (.obj [(str "timestamp", .str timestamp), (str "tool", .str tool),
    (str "event_type", .str eventType), (str "payload", .str text)])
  encode line

/-- `_SERVICE_TOOL_MAP[name]`. -/
def toolOf (config : Config) (name : Str) : Except Exc Str :=
  match dictGet? config.serviceToolMap name with
  | some tool => .ok tool
  | none => .error (.keyError name)

/-- `payload[rename(key)] = value` for every attribute. -/
def addAttributes (rename : Str → Str) (flat : AttributeMap rt)
    (payload : List (Str × rt.Value)) : Except Exc (List (Str × rt.Value)) :=
  if flat.otherKeys then .error .attributeError
  else .ok (flat.entries.foldl (fun payload entry =>
    dictSet payload (rename entry.1) entry.2) payload)

/-- `payload[key] = value` unless the value is `None`. -/
def setUnlessNone (payload : List (Str × rt.Value)) (key : String) (value : Option rt.Value) :
    List (Str × rt.Value) :=
  match value with
  | none | some .null => payload
  | some value => dictSet payload (str key) value

def claudePayload (obj : List (Str × rt.Value)) (attrs resource : AttributeMap rt) (body : Str) :
    Except Exc rt.Value := do
  let payload ← addAttributes rt norm attrs []
  let payload ← addAttributes rt (fun key => str "resource_" ++ norm key) resource payload
  let payload := dictSet payload (str "otel_body") (.str body)
  let scope := orElse rt ((dictGet? obj (str "scope")).getD .null)
    ((dictGet? obj (str "instrumentationScope")).getD .null)
  match scope with
  | .obj entries =>
      let payload := setUnlessNone rt payload "otel_scope_name" (dictGet? entries (str "name"))
      return .obj (setUnlessNone rt payload "otel_scope_version"
        (dictGet? entries (str "version")))
  | _ => return .obj payload

/-- The first of the three that is true, as text. -/
def claudeTimestamp (obj : List (Str × rt.Value)) (attrs : AttributeMap rt) (now : List Char) :
    Except Exc Str := do
  let stamp := attrs.getD "event.timestamp" .null
  if rt.truth stamp then rt.strOf stamp
  else
    match ← recordTimestampIso rt obj with
    | some (c :: rest) => return (c :: rest).map .char
    | _ => return now.map .char

def reshapeClaude (config : Config) (now : List Char) (obj : List (Str × rt.Value)) (body : Str) :
    Except Exc Bytes := do
  let attrs ← toMap rt ((dictGet? obj (str "attributes")).getD .null)
  let resource ← toMap rt ((dictGet? obj (str "resource")).getD .null)
  let serviceName ← rt.strOf (resource.getD "service.name" (.str []))
  let tool ← toolOf config serviceName
  let eventType ← rt.strOf (orElse rt (orElse rt (attrs.getD "event.name" .null) (.str body))
    (.str (str "unknown")))
  let timestamp ← claudeTimestamp rt obj attrs now
  let payload ← claudePayload rt obj attrs resource body
  canonicalRow rt timestamp tool eventType payload

def emfTimestampIso (now : List Char) (awsBlock : List (Str × rt.Value)) :
    Except Exc (List Char) :=
  let raw := (dictGet? awsBlock (str "Timestamp")).getD .null
  if !isNumberOrText rt raw then .ok now
  else
    match intOf rt raw with
    | .ok millis => isoUtc millis 1000
    | .error error => if error.isValueError then .ok now else .error error

/-- The items of `value or []`. -/
def itemsOrEmpty (value : rt.Value) : Except Exc (List rt.Value) :=
  if rt.truth value then value.iterate else .ok []

/-- A metric declaration with a usable name. -/
def metricName? : rt.Value → Option (Str × List (Str × rt.Value))
  | .obj metric =>
      match dictGet? metric (str "Name") with
      | some (.str (c :: name)) => some (c :: name, metric)
      | _ => none
  | _ => none

/-- The metrics of one entry of `CloudWatchMetrics`; the first declaration of a name wins. -/
def addMetrics (metrics : List (Str × List (Str × rt.Value))) (declaration : rt.Value) :
    Except Exc (List (Str × List (Str × rt.Value))) :=
  match declaration with
  | .obj entries => do
      let listed ← itemsOrEmpty rt ((dictGet? entries (str "Metrics")).getD .null)
      return (listed.filterMap (metricName? rt)).foldl
        (fun metrics metric => dictSetDefault metrics metric.1 metric.2) metrics
  | _ => .ok metrics

def metricByName (declarations : List rt.Value) :
    Except Exc (List (Str × List (Str × rt.Value))) :=
  declarations.foldlM (addMetrics rt) []

/-- The resource and attribute fields of an EMF event. -/
def basePayload (obj : List (Str × rt.Value)) (metricNames : List Str) : List (Str × rt.Value) :=
  let fields := obj.filter fun field =>
    !(([str "_aws", str "OTelLib", str "Version"].contains field.1) ||
      metricNames.contains field.1)
  let payload := fields.foldl (fun payload field =>
    dictSet payload
      (if isEmfResourceKey field.1 then str "resource_" ++ norm field.1 else norm field.1)
      field.2) []
  setUnlessNone rt payload "otel_scope_name" (dictGet? obj (str "OTelLib"))

def metricPayload (obj base : List (Str × rt.Value)) (metric : Str × List (Str × rt.Value)) :
    rt.Value :=
  let payload := dictSet base (str "value") ((dictGet? obj metric.1).getD .null)
  let payload := dictSet payload (str "unit") ((dictGet? metric.2 (str "Unit")).getD .null)
  let payload := dictSet payload (str "metric_type") (.str (str "SUM"))
  .obj (dictSet payload (str "otel_signal") (.str (str "metric")))

/-- The `_aws` block of an EMF event. -/
def awsBlock (obj : List (Str × rt.Value)) : List (Str × rt.Value) :=
  match dictGet? obj (str "_aws") with
  | some (.obj entries) => entries
  | _ => []

def reshapeEmf (config : Config) (now : List Char) (obj : List (Str × rt.Value)) :
    Except Exc (List Bytes) := do
  let awsMap := awsBlock rt obj
  let timestamp ← emfTimestampIso rt now awsMap
  let declarations ← itemsOrEmpty rt ((dictGet? awsMap (str "CloudWatchMetrics")).getD .null)
  let metrics ← metricByName rt declarations
  let base := basePayload rt obj (metrics.map Prod.fst)
  let serviceName ← rt.strOf ((dictGet? obj (str "service.name")).getD (.str []))
  let tool ← toolOf config serviceName
  metrics.mapM fun metric =>
    canonicalRow rt (timestamp.map .char) tool metric.1 (metricPayload rt obj base metric)

/-- `isinstance(value, (dict, list))`. -/
def isContainer : Option rt.Value → Bool
  | some (.obj _) | some (.arr _) => true
  | _ => false

/-- The fields and the body of a structured record. -/
def structuredBody? (obj : List (Str × rt.Value)) : Option Str :=
  if isContainer rt (dictGet? obj (str "resource")) &&
      isContainer rt (dictGet? obj (str "attributes")) then
    match dictGet? obj (str "body") with
    | some (.str body) => some body
    | _ => none
  else none

def reshapeMessage (config : Config) (now : List Char) (message : Str) : Except Exc Bytes := do
  let original ← encode message
  match rt.loads message with
  | .error error => if error.isValueError then return original else throw error
  | .ok (.obj obj) =>
      if (dictGet? obj (str "tool")).isSome then return original
      else
        match structuredBody? rt obj with
        | some body => reshapeClaude rt config now obj body
        | none => return original
  | .ok _ => return original

/-- An object without `tool` whose `_aws` block has a list of metric declarations. -/
def isEmf (obj : List (Str × rt.Value)) : Bool :=
  (dictGet? obj (str "tool")).isNone &&
    match dictGet? obj (str "_aws") with
    | some (.obj aws) =>
        match dictGet? aws (str "CloudWatchMetrics") with
        | some (.arr _) => true
        | _ => false
    | _ => false

def reshapeRecords (config : Config) (now : List Char) (message : Str) :
    Except Exc (List Bytes) := do
  match rt.loads message with
  | .error error =>
      if error.isValueError then return [← reshapeMessage rt config now message]
      else throw error
  | .ok (.obj obj) =>
      if isEmf rt obj then reshapeEmf rt config now obj
      else return [← reshapeMessage rt config now message]
  | .ok _ => return [← reshapeMessage rt config now message]

def diagnosticServiceName (message : Str) : Except Exc Str :=
  match rt.loads message with
  | .error error => if error.isValueError then .ok (str "unknown") else .error error
  | .ok (.obj obj) =>
      let topLevel := match dictGet? obj (str "service.name") with
        | some name => rt.strOf name
        | none => .ok (str "unknown")
      match dictGet? obj (str "resource") with
      | some (.obj resource) =>
          match dictGet? resource (str "service.name") with
          | some name => rt.strOf name
          | none => topLevel
      | _ => topLevel
  | .ok _ => .ok (str "unknown")

end CwlSplit
