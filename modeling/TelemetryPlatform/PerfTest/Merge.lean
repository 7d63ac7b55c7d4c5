import TelemetryPlatform.PerfTest.Aggregator

/-!
# Merging the results of shards

`merge_results` of `scripts/perf_merge_results.py` folds the results files of the
shards of a load test into one. Reading and writing the files is left out, and so
are the keys that it copies from the first file without looking at them.
-/

namespace PerfTest

open Python
open Deploy (strLe)

section Source

/-- `_weighted_mean` of pairs of a value and its weight. -/
def weightedMean (pairs : List (ℚ × ℚ)) : ℚ :=
  let totalWeight := (pairs.map Prod.snd).sum
  if totalWeight ≤ 0 then 0 else (pairs.map fun pair => pair.1 * pair.2).sum / totalWeight

/-- `_merge_counts`. -/
def mergeCounts (dicts : List (List (Str × Int))) : List (Str × Int) :=
  sortedByKey strLe (tally dicts.flatten)

/-- The value under a key, when it is there and no zero. -/
def truthy (value : Option ℚ) : Option ℚ := value.filter fun value => value ≠ 0

/-- `_merge_latency`. -/
def mergeLatency (results : List (Manifest ℚ)) : LatencyBlock ℚ :=
  let latencies := results.map Manifest.latencyMs
  let requestWeights : List ℚ := results.map fun result => result.totals.totalRequests.getD 0
  let percentileOf (key : Latencies ℚ → Option ℚ) : ℚ :=
    weightedMean ((latencies.map fun lat => (key lat.toLatencies).getD 0).zip requestWeights)
  let mins := latencies.filterMap fun lat => truthy lat.min
  let maxes := latencies.filterMap fun lat => truthy lat.max
  { p50 := some (percentileOf Latencies.p50)
    p90 := some (percentileOf Latencies.p90)
    p99 := some (percentileOf Latencies.p99)
    min := some (mins.min?.getD 0)
    max := some (maxes.max?.getD 0)
    mean := some (weightedMean (latencies.map fun lat =>
      (lat.mean.getD 0, (lat.sampleCount.getD 0 : ℚ))))
    sampleCount := some (latencies.map fun lat => lat.sampleCount.getD 0).sum
    samplesSeen := some (latencies.map fun lat => lat.samplesSeen.getD 0).sum
    perShard := latencies.map LatencyBlock.toLatencies }

/-- The buckets of one start put together. -/
def mergeGroup (start : ℚ) (group : List (BucketBlock ℚ)) : BucketBlock ℚ :=
  let requests := (group.map BucketBlock.requests).sum
  let errors := (group.map BucketBlock.errors).sum
  let weights : List ℚ := group.map fun bucket => bucket.requests
  let percentileOf (key : Percentiles ℚ → ℚ) : ℚ :=
    weightedMean ((group.map fun bucket => key bucket.latencyMs).zip weights)
  { bucketStartSeconds := start
    requests := requests
    records := (group.map BucketBlock.records).sum
    errors := errors
    requestsPerSecond := (group.map BucketBlock.requestsPerSecond).sum
    recordsPerSecond := (group.map BucketBlock.recordsPerSecond).sum
    errorRate := errorRate errors requests
    avgLatencyMs := weightedMean ((group.map BucketBlock.avgLatencyMs).zip weights)
    latencyMs :=
      ⟨percentileOf Percentiles.p50, percentileOf Percentiles.p90, percentileOf Percentiles.p99⟩
    byKind := some (mergeCounts (group.map fun bucket => bucket.byKind.getD [])) }

def ratLe (left right : ℚ) : Bool := decide (left ≤ right)

/-- `_merge_buckets`. -/
def mergeBuckets (results : List (Manifest ℚ)) : List (BucketBlock ℚ) :=
  let byStart := grouping ((results.flatMap Manifest.buckets).map fun bucket =>
    (bucket.bucketStartSeconds, bucket))
  ((byStart.map Prod.fst).mergeSort ratLe).map fun start =>
    mergeGroup start ((dictGet? byStart start).getD [])

/-- The totals of all shards. -/
def mergeTotals (results : List (Manifest ℚ)) : Totals ℚ :=
  let totalsList := results.map Manifest.totals
  let totalRequests := (totalsList.map fun totals => totals.totalRequests.getD 0).sum
  let totalErrors := (totalsList.map fun totals => totals.totalErrors.getD 0).sum
  { totalRequests := some totalRequests
    totalRecords := some (totalsList.map fun totals => totals.totalRecords.getD 0).sum
    totalErrors := some totalErrors
    errorRate := some (errorRate totalErrors totalRequests)
    statusCounts := some (mergeCounts (totalsList.map fun totals => totals.statusCounts.getD []))
    byKind := some (mergeCounts (totalsList.map fun totals => totals.byKind.getD [])) }

def mergeResults (results : List (Manifest ℚ)) : Except Exc (Manifest ℚ) :=
  match results with
  | [] => .error (.valueError (str "ERROR: merge_results requires at least one shard result."))
  | base :: _ =>
      let starts := results.filterMap fun result => result.startedAt.filter (· ≠ [])
      let finishes := results.filterMap fun result => result.finishedAt.filter (· ≠ [])
      .ok
        { runId := base.runId
          sessions := some (results.map fun result => result.sessions.getD 0).sum
          startedAt := (starts.mergeSort strLe).head?.or base.startedAt
          finishedAt := (finishes.mergeSort strLe).getLast?.or base.finishedAt
          shardCount := some results.length
          shardRunIds := results.map Manifest.runId
          totals := mergeTotals results
          latencyMs := mergeLatency results
          buckets := mergeBuckets results }

end Source

end PerfTest
