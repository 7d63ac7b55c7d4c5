import TelemetryPlatform.Library.Tally
import TelemetryPlatform.LoadGen.Requests

/-!
# A run of the load generator

`OtlpLoadGenerator` of `scripts/otlp_e2e_loadgen.py`: the plans of a mode, the answers
they get, the manifest of what was sent and the exit code. The requests are sent by a
pool of threads that returns the results in the order of the plans, so an assignment of
answers to the plans is all that a run depends on.
-/

namespace LoadGen

open Python

/-- The outcome of one request. -/
structure RequestResult where
  label : Str
  path : Str
  status : Int
  reason : Str
  expectedStatuses : List Int
  specs : List EventSpec

def RequestResult.ok (result : RequestResult) : Bool :=
  decide (result.status ∈ result.expectedStatuses)

/-- A record in the manifest for comparison with what was stored. -/
structure SampleRecord where
  tool : Str
  runId : Str
  eventType : Str
  timestamp : Str
  bodySha256 : Str
  payloadSha256 : Str

structure Manifest where
  runId : Str
  env : Str
  endpointHost : Str
  connectIp : Option Str
  port : Int
  encoding : Encoding
  mode : Mode
  toolValue : Str
  startedAt : Str
  finishedAt : Str
  expectedDtPartitions : List Str
  countsByEvent : List (Str × Nat)
  totalRecords : Nat
  sampleRecords : List SampleRecord
  httpStatusSummary : List (Int × Nat)
  grpcProbe : Option (Bool × Str)

/-- What a generator is made with. -/
structure Generator where
  env : Str
  endpointHost : Str
  port : Int
  connectIp : Option Str
  encoding : Encoding
  count : Int
  runId : Str
  mode : Mode

/-- What a run draws at random, and the times it reads. -/
structure Draws where
  nonce : Nat → Nat
  malformed : Bytes
  startedAt : Str
  finishedAt : Str

variable (rt : Runtime) (wire : Wire)

/-- The number of requests of a burst: one more than the limit, or more. -/
def burstSize (generator : Generator) : Int := max generator.count (wafRateLimitPer5Min + 1)

def buildPlans (generator : Generator) (draws : Draws) : Except Exc (List RequestPlan) := do
  let encoding := generator.encoding
  let timestamp := draws.startedAt
  match generator.mode with
  | .happy | .volume | .variety =>
      let specs ← planEvents rt generator.mode generator.count toolValue generator.runId timestamp
        draws.nonce
      return chunkIntoRequests rt wire specs encoding maxBodyBytes
  | .structuredEvents =>
      return [buildStructuredEventsRequest rt wire timestamp generator.runId encoding]
  | .structuredMetrics =>
      return [buildStructuredMetricsRequest rt wire timestamp generator.runId encoding]
  | .oversize =>
      return [buildOversizeRequest rt wire toolValue encoding timestamp (draws.nonce 0)]
  | .badContentType =>
      return [buildBadContentTypeRequest rt wire toolValue encoding timestamp (draws.nonce 0)]
  | .malformed => return [buildMalformedRequest encoding draws.malformed]
  | .wrongSignal => return buildWrongSignalRequests rt wire encoding
  | .wafTrigger => return [buildWafTriggerRequest rt wire toolValue encoding timestamp]
  | .rateBurst | .grpcProbe =>
      return buildRateBurstRequests rt wire toolValue encoding timestamp (burstSize generator)
        draws.nonce

/-- The result of a request that got a status and a reason. -/
def sendOne (answer : Int × Str) (plan : RequestPlan) : RequestResult where
  label := plan.label
  path := plan.path
  status := answer.1
  reason := answer.2
  expectedStatuses := plan.expectedStatuses
  specs := plan.specs

/-- The results of the plans, each answered by its place in the list. -/
def sendAll (answers : Nat → Int × Str) (plans : List RequestPlan) : List RequestResult :=
  plans.mapIdx fun index plan => sendOne (answers index) plan

def baseManifest (generator : Generator) (draws : Draws) : Manifest where
  runId := generator.runId
  env := generator.env
  endpointHost := generator.endpointHost
  connectIp := generator.connectIp
  port := generator.port
  encoding := generator.encoding
  mode := generator.mode
  toolValue := toolValue
  startedAt := draws.startedAt
  finishedAt := draws.finishedAt
  expectedDtPartitions := [draws.startedAt.take 10]
  countsByEvent := []
  totalRecords := 0
  sampleRecords := []
  httpStatusSummary := []
  grpcProbe := none

def landingPaths : List Str := [logsPath, metricsPath]

/-- One iteration of the loop over the records of an accepted request. -/
def countSpec (manifest : Manifest) (spec : EventSpec) : Manifest :=
  { manifest with
    countsByEvent := dictAdd manifest.countsByEvent spec.eventType 1
    totalRecords := manifest.totalRecords + 1
    sampleRecords :=
      if manifest.sampleRecords.length < 5 then
        manifest.sampleRecords ++ [⟨spec.tool, manifest.runId, spec.eventType, spec.timestamp,
          wire.sha256 (buildRecordBody rt spec), wire.sha256 spec.payload⟩]
      else manifest.sampleRecords }

/-- One iteration of the loop over the results. -/
def countResult (manifest : Manifest) (result : RequestResult) : Manifest :=
  let manifest := { manifest with
    httpStatusSummary := dictAdd manifest.httpStatusSummary result.status 1 }
  if result.status = 200 ∧ result.path ∈ landingPaths then
    result.specs.foldl (countSpec rt wire) manifest
  else manifest

/-- `_populate_manifest`, on a manifest whose counts are empty. -/
def populateManifest (manifest : Manifest) (results : List RequestResult) : Manifest :=
  results.foldl (countResult rt wire) manifest

/-- The manifest and the exit code; `probe` is the answer of the TCP prober. -/
def run (generator : Generator) (draws : Draws) (answers : Nat → Int × Str)
    (probe : Bool × Str) : Except Exc (Manifest × Nat) := do
  if generator.mode = .grpcProbe then
    return ({ baseManifest generator draws with grpcProbe := some probe }, if probe.1 then 1 else 0)
  let plans ← buildPlans rt wire generator draws
  let results := sendAll answers plans
  let manifest := populateManifest rt wire (baseManifest generator draws) results
  return (manifest, if results.all RequestResult.ok then 0 else 1)

end LoadGen
