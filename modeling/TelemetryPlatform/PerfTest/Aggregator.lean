import Mathlib.Data.Nat.Cast.Defs
import Mathlib.Data.Rat.Floor
import TelemetryPlatform.Deploy.Partition
import TelemetryPlatform.Library.Double
import TelemetryPlatform.Library.Numeral
import TelemetryPlatform.Library.Tally

/-!
# The results of a load run

`ResultsAggregator` of `scripts/perf_loadgen.py` folds the outcome of each request
into counters, extremes, a time series of buckets and samples of the latencies.
The type of its floats is a parameter: the rational numbers, or the doubles. So is the
generator that draws the samples: `randint` returns an integer from 0 up to the bound
and its next state.
-/

namespace PerfTest

open Python
open Binary64 (Double)
open Deploy (strLe)

section Data

/-- `math.floor`, `math.ceil`, `int(x // y)`, and the quotient of two integers. -/
class Floats (F : Type) where
  floor : F → Int
  ceil : F → Int
  floorDiv : F → F → Int
  ratio : Int → Int → F

instance : Floats ℚ where
  floor := Int.floor
  ceil := Int.ceil
  floorDiv x y := ⌊x / y⌋
  ratio m n := m / n

/-- Python raises where the value or the quotient is an infinity or a nan. -/
instance : Floats Double where
  floor x := x.floor.toInt?.getD 0
  ceil x := -((-x).floor.toInt?.getD 0)
  floorDiv x y := (x.floorDiv y).toInt?.getD 0
  ratio m n := Double.ofRat (m / n)

variable (F : Type)

/-- What the aggregator reads of a `RequestOutcome`. -/
structure RequestOutcome where
  kind : Str
  latencySeconds : F
  status : Int
  recordCount : Int
  error : Option Str
  deriving DecidableEq

/-- Settings that the constructors of the aggregator and its reservoirs accept. -/
structure Settings [Zero F] [LT F] where
  bucketSeconds : F
  maxLatencySamples : Nat
  maxSamplesPerBucket : Nat
  bucketSeconds_pos : 0 < bucketSeconds
  maxLatencySamples_pos : 1 ≤ maxLatencySamples
  maxSamplesPerBucket_pos : 1 ≤ maxSamplesPerBucket

/-- `_Reservoir`. -/
structure Reservoir where
  capacity : Nat
  samples : List F
  seen : Nat

/-- `_Bucket`. -/
structure Bucket where
  requests : Int
  records : Int
  errors : Int
  latencySumSeconds : F
  byKind : List (Str × Int)

structure ResultsAggregator (σ : Type) [Zero F] [LT F] where
  settings : Settings F
  rng : σ
  globalReservoir : Reservoir F
  latencyMin : Option F
  latencyMax : Option F
  latencySum : F
  statusCounts : List (Str × Int)
  byKindTotals : List (Str × Int)
  totalRequests : Int
  totalRecords : Int
  totalErrors : Int
  buckets : List (Int × Bucket F)
  bucketReservoirs : List (Int × Reservoir F)

structure Percentiles where
  p50 : F
  p90 : F
  p99 : F
  deriving DecidableEq

/-- An entry of `buckets`. Keys that a reader may miss are optional, here and below. -/
structure BucketBlock where
  bucketStartSeconds : F
  requests : Int
  records : Int
  errors : Int
  requestsPerSecond : F
  recordsPerSecond : F
  errorRate : F
  avgLatencyMs : F
  latencyMs : Percentiles F
  byKind : Option (List (Str × Int))
  deriving DecidableEq

structure Totals where
  totalRequests : Option Int
  totalRecords : Option Int
  totalErrors : Option Int
  errorRate : Option F
  statusCounts : Option (List (Str × Int))
  byKind : Option (List (Str × Int))
  deriving DecidableEq

structure Latencies where
  p50 : Option F
  p90 : Option F
  p99 : Option F
  min : Option F
  max : Option F
  mean : Option F
  deriving DecidableEq

structure LatencyBlock extends Latencies F where
  sampleCount : Option Int
  samplesSeen : Option Int
  perShard : List (Latencies F)
  deriving DecidableEq

/-- The keys of a results file that are merged. -/
structure Manifest where
  runId : Option Str
  sessions : Option Int
  startedAt : Option Str
  finishedAt : Option Str
  shardCount : Option Int
  shardRunIds : List (Option Str)
  totals : Totals F
  latencyMs : LatencyBlock F
  buckets : List (BucketBlock F)
  deriving DecidableEq

end Data

section Samples

variable {F : Type}

section Percentages

variable [Zero F] [NatCast F] [IntCast F] [Add F] [Sub F] [Mul F] [Div F] [Floats F]

/-- `_percentile`. -/
def percentile (sortedSamples : List F) (pct : F) : F :=
  if sortedSamples = [] then 0
  else if sortedSamples.length = 1 then sortedSamples.getD 0 0
  else
    let rank := ((sortedSamples.length - 1 : Int) : F) * (pct / 100)
    let lower := Floats.floor rank
    let upper := Floats.ceil rank
    if lower = upper then sortedSamples.getD lower.toNat 0
    else
      sortedSamples.getD lower.toNat 0 * (upper - rank) +
        sortedSamples.getD upper.toNat 0 * (rank - lower)

/-- `_percentiles` of 50, 90 and 99. -/
def percentiles [LE F] [DecidableLE F] (samples : List F) : Percentiles F :=
  let ordered := samples.mergeSort
  ⟨percentile ordered 50, percentile ordered 90, percentile ordered 99⟩

def Percentiles.inMilliseconds (values : Percentiles F) : Percentiles F :=
  ⟨values.p50 * 1000, values.p90 * 1000, values.p99 * 1000⟩

end Percentages

variable {σ : Type} (randint : σ → Nat → Nat × σ)

def Reservoir.offer (reservoir : Reservoir F) (rng : σ) (value : F) : Reservoir F × σ :=
  let seen := reservoir.seen + 1
  if reservoir.samples.length < reservoir.capacity then
    ({ reservoir with samples := reservoir.samples ++ [value], seen := seen }, rng)
  else
    let (index, rng) := randint rng (seen - 1)
    if index < reservoir.capacity then
      ({ reservoir with samples := reservoir.samples.set index value, seen := seen }, rng)
    else ({ reservoir with seen := seen }, rng)

end Samples

section Aggregation

variable {F σ : Type} [Zero F] [LT F]

def ResultsAggregator.init (settings : Settings F) (rng : σ) : ResultsAggregator F σ where
  settings := settings
  rng := rng
  globalReservoir := ⟨settings.maxLatencySamples, [], 0⟩
  latencyMin := none
  latencyMax := none
  latencySum := 0
  statusCounts := []
  byKindTotals := []
  totalRequests := 0
  totalRecords := 0
  totalErrors := 0
  buckets := []
  bucketReservoirs := []

def Bucket.empty : Bucket F := ⟨0, 0, 0, 0, []⟩

/-- What `record` does to the bucket of the outcome. -/
def Bucket.add [Add F] (bucket : Bucket F) (outcome : RequestOutcome F) : Bucket F where
  requests := bucket.requests + 1
  records := bucket.records + outcome.recordCount
  errors := if outcome.error.isSome then bucket.errors + 1 else bucket.errors
  latencySumSeconds := bucket.latencySumSeconds + outcome.latencySeconds
  byKind := dictAdd bucket.byKind outcome.kind 1

def bucketIndex [Floats F] (bucketSeconds elapsedSeconds : F) : Int :=
  max 0 (Floats.floorDiv elapsedSeconds bucketSeconds)

def ResultsAggregator.record [Add F] [Min F] [Max F] [Floats F] (randint : σ → Nat → Nat × σ)
    (aggregator : ResultsAggregator F σ) (outcome : RequestOutcome F) (elapsedSeconds : F) :
    ResultsAggregator F σ :=
  let latency := outcome.latencySeconds
  let (globalReservoir, rng) := aggregator.globalReservoir.offer randint aggregator.rng latency
  let index := bucketIndex aggregator.settings.bucketSeconds elapsedSeconds
  let bucket := (dictGet? aggregator.buckets index).getD Bucket.empty
  let reservoir := (dictGet? aggregator.bucketReservoirs index).getD
    ⟨aggregator.settings.maxSamplesPerBucket, [], 0⟩
  let (reservoir, rng) := reservoir.offer randint rng latency
  { settings := aggregator.settings
    rng := rng
    globalReservoir := globalReservoir
    latencyMin := match aggregator.latencyMin with
      | none => some latency
      | some smallest => some (min smallest latency)
    latencyMax := match aggregator.latencyMax with
      | none => some latency
      | some largest => some (max largest latency)
    latencySum := aggregator.latencySum + latency
    statusCounts := dictAdd aggregator.statusCounts (numeral outcome.status) 1
    byKindTotals := dictAdd aggregator.byKindTotals outcome.kind 1
    totalRequests := aggregator.totalRequests + 1
    totalRecords := aggregator.totalRecords + outcome.recordCount
    totalErrors :=
      if outcome.error.isSome then aggregator.totalErrors + 1 else aggregator.totalErrors
    buckets := dictSet aggregator.buckets index (bucket.add outcome)
    bucketReservoirs := dictSet aggregator.bucketReservoirs index reservoir }

/-- An aggregator that is fed these outcomes. -/
def ResultsAggregator.feed [Add F] [Min F] [Max F] [Floats F] (randint : σ → Nat → Nat × σ)
    (aggregator : ResultsAggregator F σ) (outcomes : List (RequestOutcome F × F)) :
    ResultsAggregator F σ :=
  outcomes.foldl (fun aggregator pair => aggregator.record randint pair.1 pair.2) aggregator

/-- `errors / requests`, and `0.0` without requests. -/
def errorRate {F : Type} [Zero F] [Floats F] (errors requests : Int) : F :=
  if requests = 0 then 0 else Floats.ratio errors requests

/-- `value or 0.0`. -/
def orZero {F : Type} [Zero F] [DecidableEq F] (value : Option F) : F :=
  match value with
  | none => 0
  | some value => if value = 0 then 0 else value

def intLe (left right : Int) : Bool := decide (left ≤ right)

variable [NatCast F] [IntCast F] [Add F] [Sub F] [Mul F] [Div F] [Floats F] [LE F] [DecidableLE F]

/-- The entry of a bucket in the snapshot. -/
def Bucket.block (bucketSeconds : F) (index : Int) (samples : List F) (bucket : Bucket F) :
    BucketBlock F where
  bucketStartSeconds := index * bucketSeconds
  requests := bucket.requests
  records := bucket.records
  errors := bucket.errors
  requestsPerSecond := bucket.requests / bucketSeconds
  recordsPerSecond := bucket.records / bucketSeconds
  errorRate := errorRate bucket.errors bucket.requests
  avgLatencyMs :=
    if bucket.requests = 0 then 0 else bucket.latencySumSeconds / bucket.requests * 1000
  latencyMs := (percentiles samples).inMilliseconds
  byKind := some (sortedByKey strLe bucket.byKind)

def ResultsAggregator.snapshot [DecidableEq F] (aggregator : ResultsAggregator F σ) :
    Manifest F where
  runId := none
  sessions := none
  startedAt := none
  finishedAt := none
  shardCount := none
  shardRunIds := []
  totals :=
    { totalRequests := some aggregator.totalRequests
      totalRecords := some aggregator.totalRecords
      totalErrors := some aggregator.totalErrors
      errorRate := some (errorRate aggregator.totalErrors aggregator.totalRequests)
      statusCounts := some (sortedByKey strLe aggregator.statusCounts)
      byKind := some (sortedByKey strLe aggregator.byKindTotals) }
  latencyMs :=
    let globalPcts := (percentiles aggregator.globalReservoir.samples).inMilliseconds
    { p50 := some globalPcts.p50
      p90 := some globalPcts.p90
      p99 := some globalPcts.p99
      min := some (orZero aggregator.latencyMin * 1000)
      max := some (orZero aggregator.latencyMax * 1000)
      mean := some (if aggregator.totalRequests = 0 then 0
        else aggregator.latencySum / aggregator.totalRequests * 1000)
      sampleCount := some aggregator.globalReservoir.samples.length
      samplesSeen := some aggregator.globalReservoir.seen
      perShard := [] }
  buckets := ((aggregator.buckets.map Prod.fst).mergeSort intLe).map fun index =>
    ((dictGet? aggregator.buckets index).getD Bucket.empty).block
      aggregator.settings.bucketSeconds index
      ((dictGet? aggregator.bucketReservoirs index).map Reservoir.samples |>.getD [])

/-- The mean of some latencies in milliseconds, as the snapshot computes it. -/
def meanOf {F : Type} [Zero F] [NatCast F] [IntCast F] [Add F] [Mul F] [Div F]
    (values : List F) : F :=
  values.foldl (· + ·) 0 / ((values.length : Int) : F) * 1000

end Aggregation

end PerfTest
