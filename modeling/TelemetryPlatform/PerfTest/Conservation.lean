import TelemetryPlatform.PerfTest.Snapshot

/-!
# Invariants of the aggregator

Whatever an aggregator is fed and whatever its generator draws, its counters add up and
its reservoirs hold as many of the offered latencies as fit. Any order of the calls leads
to the same counters. None of this depends on the arithmetic of the floats.
-/

namespace PerfTest

open Python
open Deploy (strLe)

variable {F σ : Type} [Zero F] [LT F] [Floats F] {randint : σ → Nat → Nat × σ}
  {settings : Settings F}

section Specification

/-- The counters of both granularities add up to the same. -/
structure Conserved (aggregator : ResultsAggregator F σ) : Prop where
  statuses : (aggregator.statusCounts.map Prod.snd).sum = aggregator.totalRequests
  kinds : (aggregator.byKindTotals.map Prod.snd).sum = aggregator.totalRequests
  requests : (aggregator.buckets.map fun entry => entry.2.requests).sum = aggregator.totalRequests
  seen : (aggregator.globalReservoir.seen : Int) = aggregator.totalRequests
  records : (aggregator.buckets.map fun entry => entry.2.records).sum = aggregator.totalRecords
  errors : (aggregator.buckets.map fun entry => entry.2.errors).sum = aggregator.totalErrors

/-- A reservoir of this capacity holds a sample of the values it was offered. -/
structure Reservoir.Sampled (capacity : Nat) (offered : List F) (reservoir : Reservoir F) :
    Prop where
  bounded : reservoir.capacity = capacity
  seen : reservoir.seen = offered.length
  size : reservoir.samples.length = min reservoir.capacity reservoir.seen
  drawn : reservoir.samples.Subperm offered

/-- The latencies of the outcomes in one bucket. -/
def bucketLatencies (bucketSeconds : F) (pairs : List (RequestOutcome F × F)) (index : Int) :
    List F :=
  latencies (valuesAt (indexed bucketSeconds pairs) index)

/-- Both kinds of reservoirs are samples. -/
structure AllSampled (settings : Settings F) (pairs : List (RequestOutcome F × F))
    (aggregator : ResultsAggregator F σ) : Prop where
  whole : aggregator.globalReservoir.Sampled settings.maxLatencySamples
    (latencies (pairs.map Prod.fst))
  each : ∀ index reservoir, dictGet? aggregator.bucketReservoirs index = some reservoir →
    reservoir.Sampled settings.maxSamplesPerBucket
      (bucketLatencies settings.bucketSeconds pairs index)
  keys : aggregator.bucketReservoirs.map Prod.fst = aggregator.buckets.map Prod.fst

/-- The extremes do not depend on the order of the calls. -/
structure SameExtremes (first second : ResultsAggregator F σ) : Prop where
  smallest : first.latencyMin = second.latencyMin
  largest : first.latencyMax = second.latencyMax

/-- What else does not depend on the order of the calls. -/
structure SameCounts [NatCast F] [IntCast F] [Add F] [Sub F] [Mul F] [Div F] [LE F]
    [DecidableLE F] [DecidableEq F] (first second : ResultsAggregator F σ) : Prop where
  requests : first.totalRequests = second.totalRequests
  records : first.totalRecords = second.totalRecords
  errors : first.totalErrors = second.totalErrors
  seen : first.globalReservoir.seen = second.globalReservoir.seen
  totals : first.snapshot.totals = second.snapshot.totals
  buckets : first.snapshot.buckets.map BucketBlock.exact =
    second.snapshot.buckets.map BucketBlock.exact

end Specification

theorem feed_concat [Add F] [Min F] [Max F] (aggregator : ResultsAggregator F σ)
    (pairs : List (RequestOutcome F × F)) (pair : RequestOutcome F × F) :
    aggregator.feed randint (pairs ++ [pair]) =
      (aggregator.feed randint pairs).record randint pair.1 pair.2 := by
  rw [ResultsAggregator.feed, List.foldl_append]
  rfl

section Counters

variable [Add F] [Min F] [Max F]

theorem sum_bucketsAfter {F : Type} [Zero F] [Add F] [Floats F] (bucketSeconds : F)
    (pairs : List (RequestOutcome F × F))
    (count : Bucket F → Int) {measure : List (RequestOutcome F) → Int}
    (counts : ∀ outcomes, count (bucketAfter outcomes) = measure outcomes)
    (zero : measure [] = 0)
    (add : ∀ first second, measure (first ++ second) = measure first + measure second) :
    (((grouping (indexed bucketSeconds pairs)).map fun group => (group.1, bucketAfter group.2)).map
        fun entry => count entry.2).sum = measure (pairs.map Prod.fst) := by
  have outcomes : (indexed bucketSeconds pairs).map Prod.snd = pairs.map Prod.fst := by
    rw [indexed, List.map_map]
    rfl
  rw [← outcomes, ← sum_grouping zero add, List.map_map]
  simp only [Function.comp_def, counts]

theorem Aggregates.conserved {pairs : List (RequestOutcome F × F)}
    {aggregator : ResultsAggregator F σ} (aggregates : Aggregates settings pairs aggregator) :
    Conserved aggregator := by
  have ones (list : List (RequestOutcome F)) (key : RequestOutcome F → Str) :
      ((list.map fun outcome => (key outcome, (1 : Int))).map Prod.snd).sum = list.length := by
    rw [List.map_map, Function.comp_def, List.map_const', List.sum_replicate, nsmul_one]
  refine ⟨?_, ?_, ?_, ?_, ?_, ?_⟩
  · rw [aggregates.statuses, sum_values_tally, statusPairs, ones, aggregates.requests,
      List.length_map]
  · rw [aggregates.kinds, sum_values_tally, kindPairs, ones, aggregates.requests, List.length_map]
  · rw [aggregates.buckets, aggregates.requests]
    have total := sum_bucketsAfter settings.bucketSeconds pairs Bucket.requests
      (fun outcomes => (bucketAfter_counts outcomes).1) rfl (by simp)
    rw [total, List.length_map]
  · rw [aggregates.seen, aggregates.requests]
  · rw [aggregates.buckets, aggregates.records]
    exact sum_bucketsAfter settings.bucketSeconds pairs Bucket.records
      (fun outcomes => (bucketAfter_counts outcomes).2.1) rfl (by simp [sumRecords])
  · rw [aggregates.buckets, aggregates.errors]
    exact sum_bucketsAfter settings.bucketSeconds pairs Bucket.errors
      (fun outcomes => (bucketAfter_counts outcomes).2.2.1) rfl (by simp [countErrors])

end Counters

section Reservoirs

theorem Reservoir.Sampled.empty {F : Type} (capacity : Nat) :
    (⟨capacity, [], 0⟩ : Reservoir F).Sampled capacity [] :=
  ⟨rfl, rfl, (Nat.min_zero capacity).symm, List.Subperm.refl []⟩

/-- A reservoir stays a sample, whatever is drawn. -/
theorem Reservoir.Sampled.offer {F : Type} {capacity : Nat} {offered : List F}
    {reservoir : Reservoir F}
    (sampled : reservoir.Sampled capacity offered) (randint : σ → Nat → Nat × σ) (rng : σ)
    (value : F) : (reservoir.offer randint rng value).1.Sampled capacity (offered ++ [value]) := by
  rcases sampled with ⟨bounded, seen, size, drawn⟩
  have shown : (reservoir.offer randint rng value).1.seen = (offered ++ [value]).length := by
    rw [seen_offer, seen, List.length_append, List.length_singleton]
  simp only [Reservoir.offer] at shown ⊢
  split
  · next room =>
      refine ⟨bounded, ?_, ?_, (List.subperm_append_right [value]).mpr drawn⟩
      · rw [List.length_append, List.length_singleton, ← seen]
      · simp only [List.length_append, List.length_singleton]
        omega
  · next full =>
      split
      · next hit =>
          refine ⟨bounded, ?_, ?_, ?_⟩
          · rw [List.length_append, List.length_singleton, ← seen]
          · simp only [List.length_set]
            omega
          · have inside : (randint rng (reservoir.seen + 1 - 1)).1 < reservoir.samples.length := by
              omega
            -- The value that is replaced leaves room for the new one.
            apply (List.set_perm_cons_eraseIdx inside value).subperm_right.mpr
            apply (List.perm_append_singleton value offered).subperm_left.mpr
            apply (List.subperm_cons value).mpr
            exact (List.eraseIdx_sublist _ _).subperm.trans drawn
      · refine ⟨bounded, ?_, ?_, drawn.trans (List.sublist_append_left _ _).subperm⟩
        · rw [List.length_append, List.length_singleton, ← seen]
        · simp only
          omega

theorem AllSampled.init (settings : Settings F) (rng : σ) :
    AllSampled settings [] (ResultsAggregator.init settings rng) :=
  ⟨Reservoir.Sampled.empty settings.maxLatencySamples, nofun, rfl⟩

variable [Add F] [Min F] [Max F]

theorem Aggregates.keys {pairs : List (RequestOutcome F × F)} {aggregator : ResultsAggregator F σ}
    (aggregates : Aggregates settings pairs aggregator) {index : Int} :
    index ∈ aggregator.buckets.map Prod.fst ↔
      index ∈ (indexed settings.bucketSeconds pairs).map Prod.fst := by
  rw [aggregates.buckets, List.map_map, ← (grouped_grouping _).keys]
  rfl

/-- A bucket without a reservoir starts an empty one and has no latencies yet. -/
theorem AllSampled.at {pairs : List (RequestOutcome F × F)} {aggregator : ResultsAggregator F σ}
    (aggregates : Aggregates settings pairs aggregator)
    (sampled : AllSampled settings pairs aggregator) (index : Int) :
    ((dictGet? aggregator.bucketReservoirs index).getD
      ⟨settings.maxSamplesPerBucket, [], 0⟩).Sampled settings.maxSamplesPerBucket
        (bucketLatencies settings.bucketSeconds pairs index) := by
  cases found : dictGet? aggregator.bucketReservoirs index with
  | some reservoir => exact sampled.each index reservoir found
  | none =>
      have absent : index ∉ (indexed settings.bucketSeconds pairs).map Prod.fst := by
        rw [← aggregates.keys, ← sampled.keys]
        exact dictGet?_eq_none_iff.mp found
      rw [bucketLatencies, valuesAt_eq_nil_iff.mpr absent]
      exact Reservoir.Sampled.empty settings.maxSamplesPerBucket

theorem bucketLatencies_concat {F : Type} [Floats F] (bucketSeconds : F)
    (pairs : List (RequestOutcome F × F))
    (outcome : RequestOutcome F) (elapsed : F) (index : Int) :
    bucketLatencies bucketSeconds (pairs ++ [(outcome, elapsed)]) index =
      bucketLatencies bucketSeconds pairs index ++
        if bucketIndex bucketSeconds elapsed = index then [outcome.latencySeconds] else [] := by
  rw [bucketLatencies, indexed, List.map_append, valuesAt_append, latencies, List.map_append]
  by_cases here : bucketIndex bucketSeconds elapsed = index
  · simp [here, valuesAt, bucketLatencies, latencies, indexed]
  · simp [here, valuesAt, bucketLatencies, latencies, indexed]

theorem AllSampled.record {pairs : List (RequestOutcome F × F)} {aggregator : ResultsAggregator F σ}
    (aggregates : Aggregates settings pairs aggregator)
    (sampled : AllSampled settings pairs aggregator) (outcome : RequestOutcome F) (elapsed : F) :
    AllSampled settings (pairs ++ [(outcome, elapsed)])
      (aggregator.record randint outcome elapsed) := by
  refine ⟨?_, ?_, ?_⟩
  · rw [List.map_append, List.map_singleton, latencies, List.map_append, List.map_singleton]
    exact sampled.whole.offer randint aggregator.rng outcome.latencySeconds
  · intro index reservoir found
    simp only [ResultsAggregator.record, aggregates.configured, dictGet?_dictSet] at found
    rw [bucketLatencies_concat]
    split at found
    · next here =>
        rw [if_pos here, ← Option.some.inj found, ← here]
        exact (sampled.at aggregates _).offer randint _ outcome.latencySeconds
    · next elsewhere =>
        rw [if_neg elsewhere, List.append_nil]
        exact sampled.each index reservoir found
  · simp only [ResultsAggregator.record, keys_dictSet, sampled.keys]

theorem allSampled_feed (randint : σ → Nat → Nat × σ) (settings : Settings F) (rng : σ)
    (pairs : List (RequestOutcome F × F)) :
    AllSampled settings pairs ((ResultsAggregator.init settings rng).feed randint pairs) := by
  induction pairs using List.reverseRecOn with
  | nil => exact AllSampled.init settings rng
  | append_singleton pairs pair ih =>
      rw [feed_concat]
      exact ih.record (Aggregates.feed randint settings rng pairs) pair.1 pair.2

end Reservoirs

section Order

variable [NatCast F] [IntCast F] [Add F] [Sub F] [Mul F] [Div F] [Min F] [Max F] [LE F]
  [DecidableLE F] [DecidableEq F]

/-- The order of the calls and the draws of the generator do not show in the counters. -/
theorem sameCounts_feed (randint randint' : σ → Nat → Nat × σ) (settings : Settings F)
    (rng rng' : σ) {pairs pairs' : List (RequestOutcome F × F)} (same : pairs.Perm pairs') :
    SameCounts ((ResultsAggregator.init settings rng).feed randint pairs)
      ((ResultsAggregator.init settings rng').feed randint' pairs') := by
  have first := Aggregates.feed randint settings rng pairs
  have second := Aggregates.feed randint' settings rng' pairs'
  have outcomes := same.map Prod.fst
  refine ⟨?_, ?_, ?_, ?_, ?_, ?_⟩
  · rw [first.requests, second.requests, same.length_eq]
  · rw [first.records, second.records, sumRecords_perm outcomes]
  · rw [first.errors, second.errors, countErrors_perm outcomes]
  · rw [first.seen, second.seen, same.length_eq]
  · rw [first.totals_snapshot, second.totals_snapshot, totalsOf_perm outcomes]
  · rw [first.buckets_snapshot, second.buckets_snapshot]
    exact bucketsOf_perm same settings.bucketSeconds

end Order

end PerfTest
