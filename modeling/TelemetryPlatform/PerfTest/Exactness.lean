import TelemetryPlatform.PerfTest.Merge
import TelemetryPlatform.PerfTest.Snapshot

/-!
# What a merge keeps

Each number that the merge documents as exact is a sum, a count by key or an extreme
over the outcomes, so that the shards' snapshots determine it. The extremes are the
exception: the merge takes a latency of zero for a missing one.
`merge_exact_iff` says when that does not matter.
-/

namespace PerfTest

open Python
open Deploy (strLe)

section Specification

/-- The merged file agrees with one aggregator's where it is documented as exact. -/
structure Agrees (merged single : Manifest ℚ) : Prop where
  totals : merged.totals = single.totals
  buckets : merged.buckets.map BucketBlock.exact = single.buckets.map BucketBlock.exact
  samplesSeen : merged.latencyMs.samplesSeen = single.latencyMs.samplesSeen
  min : merged.latencyMs.min = single.latencyMs.min
  max : merged.latencyMs.max = single.latencyMs.max

/-- A shard: an aggregator and what it is fed. -/
structure Shard (σ : Type) where
  settings : Settings ℚ
  rng : σ
  outcomes : List (RequestOutcome ℚ × ℚ)

def Shard.snapshot {σ : Type} (randint : σ → Nat → Nat × σ) (shard : Shard σ) : Manifest ℚ :=
  ((ResultsAggregator.init shard.settings shard.rng).feed randint shard.outcomes).snapshot

/-- Whether some outcome has a latency of this kind. -/
def HasLatency (outcomes : List (RequestOutcome ℚ × ℚ)) (kind : ℚ → Prop) : Prop :=
  ∃ pair ∈ outcomes, kind pair.1.latencySeconds

/-- Zero is no extreme latency of some shards only. -/
def ZeroIsPlain {σ : Type} (shards : List (Shard σ)) : Prop :=
  (∀ shard ∈ shards, ¬HasLatency shard.outcomes (· = 0)) ∨
    (∀ shard ∈ shards, shard.outcomes ≠ [] → HasLatency shard.outcomes (· = 0)) ∨
      (∃ shard ∈ shards, HasLatency shard.outcomes (· < 0)) ∧
        ∃ shard ∈ shards, HasLatency shard.outcomes (0 < ·)

end Specification

section Totals

/-- The counts of the parts, put together, are the counts of the whole. -/
theorem mergeCounts_tallies (parts : List (List (Str × Int))) :
    mergeCounts (parts.map fun part => sortedByKey strLe (tally part)) =
      sortedByKey strLe (tally parts.flatten) :=
  SortsKeys.sorted_tally_flatten sortsKeys_strLe parts

theorem sum_lengths (parts : List (List (RequestOutcome ℚ))) :
    (parts.map fun part => (part.length : Int)).sum = parts.flatten.length :=
  sum_map_parts rfl (by simp) parts

theorem sum_sumRecords (parts : List (List (RequestOutcome ℚ))) :
    (parts.map sumRecords).sum = sumRecords parts.flatten :=
  sum_map_parts rfl (by simp [sumRecords]) parts

theorem sum_countErrors (parts : List (List (RequestOutcome ℚ))) :
    (parts.map countErrors).sum = countErrors parts.flatten :=
  sum_map_parts rfl (by simp [countErrors]) parts

theorem mergeCounts_statuses (parts : List (List (RequestOutcome ℚ))) :
    mergeCounts (parts.map fun part => sortedByKey strLe (tally (statusPairs part))) =
      sortedByKey strLe (tally (statusPairs parts.flatten)) := by
  have flattened : statusPairs parts.flatten = (parts.map statusPairs).flatten := List.map_flatten
  rw [flattened, ← mergeCounts_tallies, List.map_map]
  rfl

theorem mergeCounts_kinds (parts : List (List (RequestOutcome ℚ))) :
    mergeCounts (parts.map fun part => sortedByKey strLe (tally (kindPairs part))) =
      sortedByKey strLe (tally (kindPairs parts.flatten)) := by
  have flattened : kindPairs parts.flatten = (parts.map kindPairs).flatten := List.map_flatten
  rw [flattened, ← mergeCounts_tallies, List.map_map]
  rfl

theorem mergeTotals_eq {results : List (Manifest ℚ)} {parts : List (List (RequestOutcome ℚ))}
    (totals : results.map Manifest.totals = parts.map fun part => totalsOf part) :
    mergeTotals results = totalsOf parts.flatten := by
  simp only [mergeTotals, totals, List.map_map, Function.comp_def, totalsOf, Option.getD_some,
    sum_lengths, sum_sumRecords, sum_countErrors, mergeCounts_statuses, mergeCounts_kinds]

end Totals

section Buckets

/-- What `mergeGroup` makes of the exact keys. -/
def combine (start : ℚ) (group : List (ExactBucket ℚ)) : ExactBucket ℚ where
  start := start
  requests := (group.map ExactBucket.requests).sum
  records := (group.map ExactBucket.records).sum
  errors := (group.map ExactBucket.errors).sum
  requestsPerSecond := (group.map ExactBucket.requestsPerSecond).sum
  recordsPerSecond := (group.map ExactBucket.recordsPerSecond).sum
  errorRate := errorRate (group.map ExactBucket.errors).sum (group.map ExactBucket.requests).sum
  byKind := mergeCounts (group.map ExactBucket.byKind)

theorem exact_mergeGroup (start : ℚ) (group : List (BucketBlock ℚ)) :
    (mergeGroup start group).exact = combine start (group.map BucketBlock.exact) := by
  simp only [mergeGroup, combine, BucketBlock.exact, List.map_map, Function.comp_def,
    Option.getD_some]

/-- Buckets of outcomes with one index make the bucket of all of them. -/
theorem combine_buckets (bucketSeconds : ℚ) (index : Int) (parts : List (List (RequestOutcome ℚ))) :
    combine (index * bucketSeconds) (parts.map fun part => bucketOf part bucketSeconds index) =
      bucketOf parts.flatten bucketSeconds index := by
  have requestRates : (parts.map fun part => ((part.length : Int) : ℚ) / bucketSeconds).sum =
      ((parts.flatten.length : Int) : ℚ) / bucketSeconds :=
    sum_map_parts (by simp) (by intro first second; simp [add_div]) parts
  have recordRates : (parts.map fun part => (sumRecords part : ℚ) / bucketSeconds).sum =
      (sumRecords parts.flatten : ℚ) / bucketSeconds :=
    sum_map_parts (by simp [sumRecords])
      (by intro first second; simp [sumRecords, add_div]) parts
  simp only [combine, bucketOf, List.map_map, Function.comp_def, sum_lengths, sum_sumRecords,
    sum_countErrors, requestRates, recordRates, mergeCounts_kinds]

theorem sortsKeys_ratLe : SortsKeys ratLe := sortsKeys_le

/-- Buckets under their starts. -/
def byStart (buckets : List (ExactBucket ℚ)) : List (ℚ × ExactBucket ℚ) :=
  buckets.map fun bucket => (bucket.start, bucket)

/-- The starts of buckets, in order. -/
def starts (buckets : List (ExactBucket ℚ)) : List ℚ :=
  ((grouping (byStart buckets)).map Prod.fst).mergeSort ratLe

theorem exact_mergeBuckets (results : List (Manifest ℚ)) :
    (mergeBuckets results).map BucketBlock.exact =
      (starts ((results.flatMap Manifest.buckets).map BucketBlock.exact)).map fun start =>
        combine start
          (valuesAt (byStart ((results.flatMap Manifest.buckets).map BucketBlock.exact))
              start) := by
  have grouped := grouped_grouping
    ((results.flatMap Manifest.buckets).map fun bucket => (bucket.bucketStartSeconds, bucket))
  have keyed : byStart ((results.flatMap Manifest.buckets).map BucketBlock.exact) =
      ((results.flatMap Manifest.buckets).map fun bucket =>
        (bucket.bucketStartSeconds, bucket)).map fun pair => (pair.1, pair.2.exact) := by
    rw [byStart, List.map_map, List.map_map]
    rfl
  have sorted := sortsKeys_ratLe.mergeSort_eq grouped.nodup
    (grouped_grouping (byStart ((results.flatMap Manifest.buckets).map BucketBlock.exact))).nodup
    (fun start => by
      rw [grouped.keys, (grouped_grouping _).keys, keyed]
      simp only [List.map_map, Function.comp_def])
  rw [mergeBuckets, sorted, List.map_map]
  apply List.map_congr_left
  intro start _
  rw [Function.comp_apply, exact_mergeGroup, grouped.values, keyed, valuesAt_map]

variable {bucketSeconds : ℚ} {pairs : List (RequestOutcome ℚ × ℚ)}

theorem valuesAt_bucketsOf (positive : 0 < bucketSeconds) (index : Int) :
    valuesAt (byStart (bucketsOf bucketSeconds pairs)) (index * bucketSeconds) =
      if valuesAt (indexed bucketSeconds pairs) index = [] then []
      else [bucketOf (valuesAt (indexed bucketSeconds pairs) index) bucketSeconds index] := by
  have sameStart (other : Int) : (other : ℚ) * bucketSeconds = index * bucketSeconds ↔
      other = index := by
    rw [mul_left_inj' positive.ne', Int.cast_inj]
  have atIndex : ((fun pair : ℚ × ExactBucket ℚ => decide (pair.1 = index * bucketSeconds)) ∘
      (fun bucket : ExactBucket ℚ => (bucket.start, bucket)) ∘ fun other =>
        bucketOf (valuesAt (indexed bucketSeconds pairs) other) bucketSeconds other) =
      fun other => decide (other = index) := by
    funext other
    exact decide_eq_decide.mpr (sameStart other)
  have occurs : valuesAt (indexed bucketSeconds pairs) index = [] ↔
      index ∉ indices bucketSeconds pairs := by
    rw [valuesAt_eq_nil_iff, mem_indices]
  rw [byStart, bucketsOf, List.map_map, valuesAt, List.filter_map, List.map_map, atIndex,
    List.filter_eq, nodup_indices.count]
  by_cases present : index ∈ indices bucketSeconds pairs
  · rw [if_pos present, if_neg fun empty => occurs.mp empty present]
    rfl
  · rw [if_neg present, if_pos (occurs.mpr present)]
    rfl

variable {runs : List (List (RequestOutcome ℚ × ℚ))}

/-- The buckets of one start are those of the runs that have outcomes there. -/
theorem valuesAt_flatMap_bucketsOf (positive : 0 < bucketSeconds) (index : Int) :
    valuesAt (byStart (runs.flatMap (bucketsOf bucketSeconds))) (index * bucketSeconds) =
      ((runs.map fun run => valuesAt (indexed bucketSeconds run) index).filter
        fun part => decide (part ≠ [])).map fun part => bucketOf part bucketSeconds index := by
  induction runs with
  | nil => rfl
  | cons run runs ih =>
      have split : byStart ((run :: runs).flatMap (bucketsOf bucketSeconds)) =
          byStart (bucketsOf bucketSeconds run) ++
            byStart (runs.flatMap (bucketsOf bucketSeconds)) := by
        rw [List.flatMap_cons, byStart, List.map_append]
        rfl
      rw [split, valuesAt_append, valuesAt_bucketsOf positive, ih, List.map_cons, List.filter_cons]
      by_cases empty : valuesAt (indexed bucketSeconds run) index = []
      · simp [empty]
      · simp [empty]

theorem combine_flatMap_bucketsOf (positive : 0 < bucketSeconds) (index : Int) :
    combine (index * bucketSeconds)
        (valuesAt (byStart (runs.flatMap (bucketsOf bucketSeconds))) (index * bucketSeconds)) =
      bucketOf (valuesAt (indexed bucketSeconds runs.flatten) index) bucketSeconds index := by
  have flattened : indexed bucketSeconds runs.flatten =
      (runs.map (indexed bucketSeconds)).flatten := List.map_flatten
  rw [valuesAt_flatMap_bucketsOf positive, combine_buckets, List.flatten_filter_ne_nil, flattened,
    valuesAt_flatten, List.map_map]
  rfl

theorem mem_indices_flatten {index : Int} : index ∈ indices bucketSeconds runs.flatten ↔
    ∃ run ∈ runs, index ∈ indices bucketSeconds run := by
  have flattened : indexed bucketSeconds runs.flatten =
      (runs.map (indexed bucketSeconds)).flatten := List.map_flatten
  rw [mem_indices, flattened, mem_keys_flatten]
  constructor
  · rintro ⟨part, partMem, indexMem⟩
    rcases List.mem_map.mp partMem with ⟨run, runMem, rfl⟩
    exact ⟨run, runMem, mem_indices.mpr indexMem⟩
  · rintro ⟨run, runMem, indexMem⟩
    exact ⟨_, List.mem_map_of_mem runMem, mem_indices.mp indexMem⟩

theorem mem_starts {start : ℚ} :
    start ∈ (byStart (runs.flatMap (bucketsOf bucketSeconds))).map Prod.fst ↔
      start ∈ (indices bucketSeconds runs.flatten).map fun index : Int =>
          index * bucketSeconds := by
  simp only [byStart, bucketsOf, List.map_map, List.mem_map, List.mem_flatMap, mem_indices_flatten,
    Function.comp_apply]
  constructor
  · rintro ⟨bucket, ⟨run, runMem, index, indexMem, rfl⟩, rfl⟩
    exact ⟨index, ⟨run, runMem, indexMem⟩, rfl⟩
  · rintro ⟨index, ⟨run, runMem, indexMem⟩, rfl⟩
    exact ⟨_, ⟨run, runMem, index, indexMem, rfl⟩, rfl⟩

theorem starts_flatMap_bucketsOf (positive : 0 < bucketSeconds) :
    starts (runs.flatMap (bucketsOf bucketSeconds)) =
      (indices bucketSeconds runs.flatten).map fun index : Int => index * bucketSeconds := by
  have injective : Function.Injective fun index : Int => (index : ℚ) * bucketSeconds := by
    intro first second same
    exact Int.cast_injective (mul_right_cancel₀ positive.ne' same)
  have sorted : ((indices bucketSeconds runs.flatten).map
      fun index : Int => (index : ℚ) * bucketSeconds).Pairwise fun first second =>
        ratLe first second = true := by
    rw [List.pairwise_map]
    apply (List.pairwise_mergeSort sortsKeys_intLe.trans sortsKeys_intLe.total _).imp
    intro first second le
    have le' : (first : ℚ) ≤ second := Int.cast_le.mpr (of_decide_eq_true le)
    exact decide_eq_true (mul_le_mul_of_nonneg_right le' positive.le)
  rw [← List.mergeSort_of_pairwise sorted]
  apply sortsKeys_ratLe.mergeSort_eq (grouped_grouping _).nodup (nodup_indices.map injective)
  intro start
  rw [(grouped_grouping _).keys, mem_starts]

/-- The merged buckets are those of one aggregator. -/
theorem merged_bucketsOf (positive : 0 < bucketSeconds) :
    ((starts (runs.flatMap (bucketsOf bucketSeconds))).map fun start =>
        combine start (valuesAt (byStart (runs.flatMap (bucketsOf bucketSeconds))) start)) =
      bucketsOf bucketSeconds runs.flatten := by
  rw [starts_flatMap_bucketsOf positive, List.map_map, bucketsOf]
  apply List.map_congr_left
  intro index _
  rw [Function.comp_apply, combine_flatMap_bucketsOf positive]

end Buckets

section Extremes

theorem filterMap_truthy (values : List ℚ) :
    (values.map some).filterMap truthy = values.filter fun value => value ≠ 0 := by
  induction values with
  | nil => rfl
  | cons value values ih =>
      rw [List.map_cons, List.filterMap_cons, List.filter_cons, ih]
      by_cases zero : value = 0
      · simp [truthy, Option.filter, zero]
      · simp [truthy, Option.filter, zero]

theorem truthy_read {results : List (Manifest ℚ)}
    (read : LatencyBlock ℚ → Option ℚ) {values : List ℚ}
    (reads : (results.map fun result => read result.latencyMs) = values.map some) :
    (results.map Manifest.latencyMs).filterMap (fun lat => truthy (read lat)) =
      values.filter fun value => value ≠ 0 := by
  rw [← filterMap_truthy, ← reads, List.filterMap_map, List.filterMap_map]
  rfl

theorem strictMono_milliseconds : StrictMono fun value : ℚ => value * 1000 := by
  intro first second less
  exact mul_lt_mul_of_pos_right less (by norm_num)

/-- The largest of the parts' largest elements that are no zero. -/
def greatestOfParts (parts : List (List ℚ)) : ℚ :=
  least (α := ℚᵒᵈ) 0 (partLeasts (α := ℚᵒᵈ) 0 parts)

theorem greatest_scaled (parts : List (List ℚ)) :
    ((parts.map fun part => greatest part * 1000).filter fun value => value ≠ 0).max?.getD 0 =
      greatestOfParts parts * 1000 :=
  least_scaled (α := ℚᵒᵈ) parts strictMono_milliseconds.dual (zero_mul 1000)

theorem greatestOfParts_eq_iff {parts : List (List ℚ)} :
    greatestOfParts parts = greatest parts.flatten ↔
      (∃ element ∈ parts.flatten, 0 < element) ∨ 0 ∉ parts.flatten ∨
        ∀ part ∈ parts, part ≠ [] → 0 ∈ part :=
  least_partLeasts_iff (α := ℚᵒᵈ)

theorem greatest_perm {first second : List ℚ} (same : first.Perm second) :
    greatest first = greatest second :=
  least_perm (α := ℚᵒᵈ) 0 same

/-- The extremes of the merged file are scaled ones of the shards' extremes. -/
theorem mergeLatency_extremes (results : List (Manifest ℚ)) (parts : List (List ℚ))
    (mins : (results.map fun result => result.latencyMs.min) =
      (parts.map fun part => least 0 part * 1000).map some)
    (maxes : (results.map fun result => result.latencyMs.max) =
      (parts.map fun part => greatest part * 1000).map some) :
    (mergeLatency results).min = some (least 0 (partLeasts 0 parts) * 1000) ∧
      (mergeLatency results).max = some (greatestOfParts parts * 1000) := by
  refine ⟨?_, ?_⟩
  · have scaled := least_scaled parts strictMono_milliseconds (zero_mul 1000)
    rw [← scaled, ← truthy_read (fun lat => lat.min) mins]
    rfl
  · rw [← greatest_scaled, ← truthy_read (fun lat => lat.max) maxes]
    rfl

end Extremes

section Merging

variable {σ : Type} {randint : σ → Nat → Nat × σ} {settings : Settings ℚ} {rng : σ}
  {shards : List (Shard σ)} {outcomes : List (RequestOutcome ℚ × ℚ)}

variable (randint) in
theorem Shard.aggregates (shard : Shard σ) : Aggregates shard.settings shard.outcomes
    ((ResultsAggregator.init shard.settings shard.rng).feed randint shard.outcomes) :=
  Aggregates.feed randint shard.settings shard.rng shard.outcomes

/-- The latencies of each shard. -/
def shardLatencies (shards : List (Shard σ)) : List (List ℚ) :=
  shards.map fun shard => latencies (shard.outcomes.map Prod.fst)

theorem shardLatencies_flatten (same : outcomes.Perm (shards.flatMap Shard.outcomes)) :
    (latencies (outcomes.map Prod.fst)).Perm (shardLatencies shards).flatten := by
  have parts : (shardLatencies shards).flatten =
      latencies ((shards.flatMap Shard.outcomes).map Prod.fst) := by
    simp only [shardLatencies, latencies, List.flatMap, List.map_flatten, List.map_map,
      Function.comp_def]
  rw [parts]
  exact (same.map Prod.fst).map RequestOutcome.latencySeconds

theorem hasLatency_iff {shard : Shard σ} {kind : ℚ → Prop} : HasLatency shard.outcomes kind ↔
    ∃ latency ∈ latencies (shard.outcomes.map Prod.fst), kind latency := by
  constructor
  · rintro ⟨pair, pairMem, kind⟩
    exact ⟨_, List.mem_map_of_mem (List.mem_map_of_mem pairMem), kind⟩
  · rintro ⟨latency, latencyMem, kind⟩
    rcases List.mem_map.mp latencyMem with ⟨outcome, outcomeMem, rfl⟩
    rcases List.mem_map.mp outcomeMem with ⟨pair, pairMem, rfl⟩
    exact ⟨pair, pairMem, kind⟩

/-- The merge has both extremes exactly when zero is none that only some shards have. -/
theorem extremes_iff : (least 0 (partLeasts 0 (shardLatencies shards)) =
        least 0 (shardLatencies shards).flatten ∧
      greatestOfParts (shardLatencies shards) = greatest (shardLatencies shards).flatten) ↔
    ZeroIsPlain shards := by
  have some (kind : ℚ → Prop) : (∃ element ∈ (shardLatencies shards).flatten, kind element) ↔
      ∃ shard ∈ shards, HasLatency shard.outcomes kind := by
    simp only [hasLatency_iff, shardLatencies, List.mem_flatten, List.mem_map]
    constructor
    · rintro ⟨element, ⟨_, ⟨shard, shardMem, rfl⟩, elementMem⟩, kind⟩
      exact ⟨shard, shardMem, element, elementMem, kind⟩
    · rintro ⟨shard, shardMem, element, elementMem, kind⟩
      exact ⟨element, ⟨_, ⟨shard, shardMem, rfl⟩, elementMem⟩, kind⟩
  have absent : 0 ∉ (shardLatencies shards).flatten ↔
      ∀ shard ∈ shards, ¬HasLatency shard.outcomes (· = 0) := by
    have present := some (· = 0)
    simp only [exists_eq_right] at present
    rw [present]
    simp only [not_exists, not_and]
  have each : (∀ part ∈ shardLatencies shards, part ≠ [] → 0 ∈ part) ↔
      ∀ shard ∈ shards, shard.outcomes ≠ [] → HasLatency shard.outcomes (· = 0) := by
    simp only [hasLatency_iff, shardLatencies, List.forall_mem_map, exists_eq_right, latencies,
      ne_eq, List.map_eq_nil_iff]
  rw [least_partLeasts_iff, greatestOfParts_eq_iff, some, some, absent, each,
    ← and_or_right, or_comm, or_assoc]
  rfl

/-- What one aggregator and a merge have besides the extremes. -/
structure AgreesButExtremes (merged single : Manifest ℚ) : Prop where
  totals : merged.totals = single.totals
  buckets : merged.buckets.map BucketBlock.exact = single.buckets.map BucketBlock.exact
  samplesSeen : merged.latencyMs.samplesSeen = single.latencyMs.samplesSeen

variable (randint) in
theorem mergeResults_ok (nonempty : shards ≠ []) :
    ∃ merged, mergeResults (shards.map (Shard.snapshot randint)) = .ok merged ∧
      merged.totals = mergeTotals (shards.map (Shard.snapshot randint)) ∧
      merged.latencyMs = mergeLatency (shards.map (Shard.snapshot randint)) ∧
      merged.buckets = mergeBuckets (shards.map (Shard.snapshot randint)) := by
  cases shards with
  | nil => exact absurd rfl nonempty
  | cons shard rest =>
      refine ⟨_, rfl, rfl, rfl, rfl⟩

theorem merged_totals (same : outcomes.Perm (shards.flatMap Shard.outcomes)) :
    mergeTotals (shards.map (Shard.snapshot randint)) =
      ((Shard.mk settings rng outcomes).snapshot randint).totals := by
  have parts : (shards.map (Shard.snapshot randint)).map Manifest.totals =
      (shards.map fun shard => shard.outcomes.map Prod.fst).map fun part => totalsOf part := by
    rw [List.map_map, List.map_map]
    apply List.map_congr_left
    intro shard _
    exact (shard.aggregates randint).totals_snapshot
  have flattened : (shards.map fun shard => shard.outcomes.map Prod.fst).flatten =
      (shards.flatMap Shard.outcomes).map Prod.fst := by
    rw [List.flatMap, List.map_flatten, List.map_map]
    rfl
  rw [mergeTotals_eq parts, flattened, ← totalsOf_perm (same.map Prod.fst)]
  exact ((Shard.mk settings rng outcomes).aggregates randint).totals_snapshot.symm

theorem merged_buckets (same : outcomes.Perm (shards.flatMap Shard.outcomes))
    (bucketing : ∀ shard ∈ shards, shard.settings.bucketSeconds = settings.bucketSeconds) :
    (mergeBuckets (shards.map (Shard.snapshot randint))).map BucketBlock.exact =
      ((Shard.mk settings rng outcomes).snapshot randint).buckets.map BucketBlock.exact := by
  have parts : ((shards.map (Shard.snapshot randint)).flatMap Manifest.buckets).map
      BucketBlock.exact = (shards.map Shard.outcomes).flatMap
          (bucketsOf settings.bucketSeconds) := by
    rw [List.map_flatMap, List.flatMap_map, List.flatMap_map]
    apply List.flatMap_congr
    intro shard shardMem
    rw [← bucketing shard shardMem]
    exact (shard.aggregates randint).buckets_snapshot
  rw [exact_mergeBuckets, parts, merged_bucketsOf settings.bucketSeconds_pos, ← List.flatMap,
    ← bucketsOf_perm same]
  exact ((Shard.mk settings rng outcomes).aggregates randint).buckets_snapshot.symm

theorem merged_samplesSeen (same : outcomes.Perm (shards.flatMap Shard.outcomes)) :
    (mergeLatency (shards.map (Shard.snapshot randint))).samplesSeen =
      ((Shard.mk settings rng outcomes).snapshot randint).latencyMs.samplesSeen := by
  have parts : ((shards.map (Shard.snapshot randint)).map Manifest.latencyMs).map
      (fun lat => lat.samplesSeen.getD 0) =
        (shards.map Shard.outcomes).map fun run => (run.length : Int) := by
    rw [List.map_map, List.map_map, List.map_map]
    apply List.map_congr_left
    intro shard _
    have seen := (shard.aggregates randint).latencies_snapshot.1
    exact congrArg (fun count => Option.getD count 0) seen
  have total : ((shards.map Shard.outcomes).map fun run => (run.length : Int)).sum =
      outcomes.length := by
    rw [same.length_eq]
    exact sum_map_parts rfl (by simp) (shards.map Shard.outcomes)
  have single := (Shard.mk settings rng outcomes).aggregates randint
  rw [mergeLatency, parts, total]
  exact single.latencies_snapshot.1.symm

variable (randint settings rng) in
theorem merged_extremes (same : outcomes.Perm (shards.flatMap Shard.outcomes)) :
    ((mergeLatency (shards.map (Shard.snapshot randint))).min =
        ((Shard.mk settings rng outcomes).snapshot randint).latencyMs.min ∧
      (mergeLatency (shards.map (Shard.snapshot randint))).max =
        ((Shard.mk settings rng outcomes).snapshot randint).latencyMs.max) ↔
      ZeroIsPlain shards := by
  have parts := mergeLatency_extremes (shards.map (Shard.snapshot randint)) (shardLatencies shards)
    (by
      simp only [shardLatencies, List.map_map]
      apply List.map_congr_left
      intro shard _
      exact (shard.aggregates randint).latencies_snapshot.2.1)
    (by
      simp only [shardLatencies, List.map_map]
      apply List.map_congr_left
      intro shard _
      exact (shard.aggregates randint).latencies_snapshot.2.2)
  have single := (Shard.mk settings rng outcomes).aggregates randint
  have singleMin : ((Shard.mk settings rng outcomes).snapshot randint).latencyMs.min =
      some (least 0 (latencies (outcomes.map Prod.fst)) * 1000) := single.latencies_snapshot.2.1
  have singleMax : ((Shard.mk settings rng outcomes).snapshot randint).latencyMs.max =
      some (greatest (latencies (outcomes.map Prod.fst)) * 1000) := single.latencies_snapshot.2.2
  have flattened := shardLatencies_flatten same
  have scale (first second : ℚ) : some (first * 1000) = some (second * 1000) ↔ first = second := by
    rw [Option.some.injEq, mul_left_inj' (by norm_num)]
  rw [parts.1, parts.2, singleMin, singleMax, scale, scale, least_perm 0 flattened,
    greatest_perm flattened]
  exact extremes_iff

/-- A merge has what one aggregator has, in any order of the outcomes, exactly when a latency
of zero is no extreme of some shards only. -/
theorem merge_exact_iff (randint : σ → Nat → Nat × σ) (settings : Settings ℚ) (rng : σ)
    (shards : List (Shard σ)) (outcomes : List (RequestOutcome ℚ × ℚ)) (nonempty : shards ≠ [])
    (bucketing : ∀ shard ∈ shards, shard.settings.bucketSeconds = settings.bucketSeconds)
    (same : outcomes.Perm (shards.flatMap Shard.outcomes)) :
    ∃ merged, mergeResults (shards.map (Shard.snapshot randint)) = .ok merged ∧
      AgreesButExtremes merged ((Shard.mk settings rng outcomes).snapshot randint) ∧
      (Agrees merged ((Shard.mk settings rng outcomes).snapshot randint) ↔
        ZeroIsPlain shards) := by
  rcases mergeResults_ok randint nonempty with
    ⟨merged, merges, totals, latencyMs, buckets⟩
  have rest : AgreesButExtremes merged ((Shard.mk settings rng outcomes).snapshot randint) := by
    refine ⟨?_, ?_, ?_⟩
    · rw [totals, merged_totals same]
    · rw [buckets, merged_buckets same bucketing]
    · rw [latencyMs, merged_samplesSeen same]
  refine ⟨merged, merges, rest, ?_⟩
  rw [← merged_extremes randint settings rng same, ← latencyMs]
  constructor
  · intro agrees
    exact ⟨agrees.min, agrees.max⟩
  · rintro ⟨min, max⟩
    exact ⟨rest.totals, rest.buckets, rest.samplesSeen, min, max⟩

end Merging

section Sample

def failedShard : Shard Unit := ⟨sampleSettings, (), [(failedDispatch, 0)]⟩

def servedShard : Shard Unit := ⟨sampleSettings, (), [(servedRequest, 0)]⟩

/-- A shard without outcomes does no harm to a failed dispatch. -/
theorem merge_exact_failed : ∃ merged,
    mergeResults ([failedShard, ⟨sampleSettings, (), []⟩].map (Shard.snapshot firstIndex)) =
        .ok merged ∧
      Agrees merged (failedShard.snapshot firstIndex) := by
  rcases merge_exact_iff firstIndex sampleSettings ()
    [failedShard, ⟨sampleSettings, (), []⟩] failedShard.outcomes (by simp)
    (by
      intro shard shardMem
      rcases List.mem_pair.mp shardMem with rfl | rfl <;> rfl)
    (List.Perm.refl _) with ⟨merged, merges, -, agrees⟩
  refine ⟨merged, merges, agrees.mpr (Or.inr (Or.inl ?_))⟩
  intro shard shardMem nonempty
  rcases List.mem_pair.mp shardMem with rfl | rfl
  · exact ⟨_, List.mem_singleton_self _, rfl⟩
  · exact absurd rfl nonempty

/-- The smallest latency of a failed dispatch and a served request is lost. -/
theorem not_agrees_failed : ¬∃ merged,
    mergeResults ([failedShard, servedShard].map (Shard.snapshot firstIndex)) = .ok merged ∧
      Agrees merged
        ((Shard.mk sampleSettings () (failedShard.outcomes ++ servedShard.outcomes)).snapshot
          firstIndex) := by
  rintro ⟨merged, merges, agrees⟩
  have latencyMs : merged.latencyMs =
      mergeLatency ([failedShard, servedShard].map (Shard.snapshot firstIndex)) := by
    rw [← Except.ok.inj merges]
  have mergedMin : (mergeLatency ([failedShard, servedShard].map
      (Shard.snapshot firstIndex))).min = some 500 := by decide +kernel
  have singleMin : ((Shard.mk sampleSettings ()
      (failedShard.outcomes ++ servedShard.outcomes)).snapshot firstIndex).latencyMs.min =
        some 0 := by decide +kernel
  have same := agrees.min
  rw [latencyMs, mergedMin, singleMin, Option.some.injEq] at same
  exact absurd same (by norm_num)

end Sample

end PerfTest
